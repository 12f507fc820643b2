import Compositor.Proofs.Frame.Growth

/-!
# A failed frame costs a full redraw

When a frame fails, the ring has turned and the entry of its buffer is empty, so nothing in the ring
tells that the pixels were never drawn or shown. Everything is damaged then, and this debt stays
with each buffer until a frame uses it: what the buffer has missed and the current damage make up
the bounds, and damage beyond the bounds is never noted. Main statement: after a frame that failed,
the next frame that uses a buffer is handed exactly the bounds, whatever happens in between.
-/

namespace Compositor.FrameLoop

open Compositor.Action

/-! ## Runs of a loop -/

/-- One thing that happens to a loop, and the buffer that it uses, if it is a frame. Anything may
fail in a frame. Other code may do anything but give up the handles of the loop; it cannot make the
store forget a buffer. -/
inductive Step : FrameLoop → Session → List BufferId → FrameLoop → Session → Prop
  | damage {d σ} (region : Region) : Step d σ [] (d.damage region) σ
  | damageRect {d σ} (rect : Rect) : Step d σ [] (d.damageRect rect) σ
  | resize {d σ width height d' σ'} : Sized width height →
    d.resize width height σ = .ok d' σ' → Step d σ [] d' σ'
  | frame {d σ α c painter b d' o σ'} [Scalar α] : d.buffers[d.next]? = some b →
    d.makeFrame α c painter σ = .ok (d', o) σ' → Step d σ [b.id] d' σ'
  | other {d σ σ' k} : σ'.store.Balanced (d.holding ++ k) →
    σ.store.entries.length ≤ σ'.store.entries.length → Step d σ [] d σ'

/-- What happens to a loop over some time, and the buffers that its frames used. -/
inductive Run (d : FrameLoop) (σ : Session) : List BufferId → FrameLoop → Session → Prop
  | start : Run d σ [] d σ
  | next {used d' σ' more d'' σ''} : Run d σ used d' σ' → Step d' σ' more d'' σ'' →
    Run d σ (used ++ more) d'' σ''

variable {d d' : FrameLoop} {c : Conditions} {σ σ' : Session} {used : List BufferId} {b : Buffer}
  {k : Holding} {α : Type} [Scalar α] {painter : Region → Painting} {o : FrameOutcome}

/-- However a frame goes, its ring has turned for the next buffer; and everything is damaged unless
the display accepted the frame. -/
theorem makeFrame_closes (h : d.makeFrame α c painter σ = .ok (d', o) σ')
    (balanced : σ.store.Balanced (d.holding ++ k)) :
    ∃ b, d.buffers[d.next]? = some b ∧
      Closes (d.turned σ.store.isAlive b) d' (o.result = .ok true) := by
  obtain ⟨b, found, -, -, ending⟩ := makeFrame_keeps h balanced
  refine ⟨b, found, ?_⟩
  obtain ⟨unpainted, spoilt, -⟩ | ⟨⟨painted⟩⟩ := ending
  · have failed : o.result ≠ .ok true := by
      obtain ⟨d₁, opened, σ₁, -, ⟨error, -, rfl, -⟩ | ⟨f, p, stats, σ₂, result, -, -, -, rfl⟩⟩ :=
        makeFrame_ok h
      · nofun
      · cases unpainted
    exact ⟨d.display, .inr ⟨failed, spoilt⟩⟩
  · exact painted.closes

theorem everything_spoiled {s : Store} (intact : d.spoiled.Intact s) :
    d.spoiled.ring.current = Region.ofRect d.spoiled.bounds := by
  rw [← intact.everything_ring]
  rfl

/-! ## Damage lies in the bounds -/

/-- No damage that counts lies beyond the bounds, and no entry is for a buffer that is still to be
made. -/
structure Confined (d : FrameLoop) (s : Store) : Prop where
  intact : d.Intact s
  next : d.next < d.buffers.length
  current : ∀ p, d.ring.current.contains p → d.bounds.contains p
  missed : ∀ b ∈ d.buffers, ∀ missed ∈ d.ring.missed? b.id, ∀ p, missed.contains p →
    d.bounds.contains p
  known : ∀ id, (d.ring.missed? id).isSome → id.index < s.entries.length

namespace Confined

variable {s s' : Store}

/-- Adding damage. -/
theorem ring (confined : d.Confined s) {ring : DamageRing} (intact : { d with ring }.Intact s)
    (missed : ∀ id, ring.missed? id = d.ring.missed? id)
    (current : ∀ p, ring.current.contains p → d.ring.current.contains p ∨
      ∀ r ∈ d.ring.bounds, r.contains p) : { d with ring }.Confined s where
  intact
  next := confined.next
  current p there := by
    rcases current p there with before | inside
    · exact confined.current p before
    · exact inside d.bounds confined.intact.bounds_ring
  missed b mem region entry := confined.missed b mem region (missed b.id ▸ entry)
  known id entry := confined.known id (missed id ▸ entry)

theorem damage (confined : d.Confined s) (region : Region) : (d.damage region).Confined s := by
  refine confined.ring (confined.intact.damage region) (fun _ => rfl) fun p there => ?_
  exact ((d.ring.contains_current_add region p).1 there).imp id (·.2)

theorem damageRect (confined : d.Confined s) (rect : Rect) : (d.damageRect rect).Confined s := by
  refine confined.ring (confined.intact.damageRect rect) (d.ring.missed?_addRect · rect)
    fun p there => ?_
  exact ((d.ring.contains_current_addRect rect p).1 there).imp id (·.2)

/-- New buffers have no entries yet. -/
theorem renewed (intact : d'.Intact s') (everything : d'.ring.current = Region.ofRect d'.bounds)
    (next : d'.next = 0) {n : Nat} (grows : n ≤ s'.entries.length)
    (known : ∀ id, (d'.ring.missed? id).isSome → id.index < n)
    (fresh : ∀ b ∈ d'.buffers, n ≤ b.id.index) : d'.Confined s' where
  intact
  next := next ▸ List.length_pos_iff.2 intact.filled
  current p there := by
    rw [everything] at there
    exact Region.contains_ofRect.1 there
  missed b mem missed entry := by
    have old := known b.id (Option.isSome_iff_exists.2 ⟨missed, entry⟩)
    have new := fresh b mem
    omega
  known id entry := Nat.lt_of_lt_of_le (known id entry) grows

theorem resize {width height : UInt32} (confined : d.Confined σ.store) (sized : Sized width height)
    (h : d.resize width height σ = .ok d' σ') : d'.Confined σ'.store := by
  obtain ⟨rfl, rfl⟩ | ⟨intact, everything⟩ := confined.intact.resize h sized
  · exact confined
  · obtain ⟨rfl, rfl⟩ | ⟨grows, next, fresh, missed⟩ := resize_fresh h
    · exact confined
    · exact renewed intact everything next grows (fun id => missed id ▸ confined.known id) fresh

theorem new {output : OutputId} {width height : UInt32} {swapchain : Swapchain}
    {renderer : Renderer} {display : HeadlessDisplay} (sized : Sized width height)
    (balanced : σ.store.Balanced (display.config.holding ++ k))
    (h : FrameLoop.new output width height swapchain renderer display σ = .ok d σ') :
    d.Confined σ'.store := by
  obtain ⟨intact, everything⟩ := intact_new h sized balanced
  unfold FrameLoop.new at h
  obtain ⟨rfl, -⟩ | ⟨grows, next, fresh, missed⟩ := resize_fresh h
  · exact absurd rfl intact.filled
  · refine renewed intact everything next grows (fun id entry => ?_) fresh
    rw [missed] at entry
    cases entry

/-- The ring turned for a buffer, and perhaps everything was damaged after that. -/
theorem turned (confined : d.Confined s) {alive : BufferId → Bool} (mem : b ∈ d.buffers)
    {display : HeadlessDisplay} {ring : DamageRing}
    (intact : { d.turned alive b with display, ring }.Intact s')
    (grows : s.entries.length ≤ s'.entries.length)
    (missed : ∀ id, ring.missed? id = (d.ring.rotateFor alive b.id).1.missed? id)
    (current : ∀ p, ring.current.contains p → d.bounds.contains p) :
    { d.turned alive b with display, ring }.Confined s' where
  intact
  next := Nat.mod_lt _ (List.length_pos_iff.2 confined.intact.filled)
  current
  missed b' mem' region entry p there := by
    change region ∈ ring.missed? b'.id at entry
    rw [missed, DamageRing.missed?_rotateFor, DamageRing.missed?_prune] at entry
    by_cases same : b'.id = b.id
    · rw [if_pos same] at entry
      cases entry
      rw [Region.contains_empty] at there
      cases there
    · rw [if_neg same] at entry
      obtain ⟨before, found, rfl⟩ := Option.map_eq_some_iff.1 entry
      split at found
      · rcases Region.contains_union.1 there with old | now
        · exact confined.missed b' mem' before found p old
        · exact confined.current p now
      · cases found
  known id entry := by
    refine Nat.lt_of_lt_of_le ?_ grows
    change (ring.missed? id).isSome at entry
    rw [missed, DamageRing.missed?_rotateFor, DamageRing.missed?_prune] at entry
    split at entry
    · rename_i same
      obtain ⟨k, balanced⟩ := confined.intact.owned
      obtain ⟨e, found⟩ := Store.exists_entry balanced (mem_holding mem k)
      exact same ▸ (List.getElem?_eq_some_iff.1 found).1
    · split at entry
      · rw [Option.isSome_map] at entry
        exact confined.known id entry
      · cases entry

theorem makeFrame (confined : d.Confined σ.store)
    (h : d.makeFrame α c painter σ = .ok (d', o) σ') : d'.Confined σ'.store := by
  have intact := confined.intact.makeFrame h
  have grows := grows_makeFrame α d c painter h
  obtain ⟨k, balanced⟩ := confined.intact.owned
  obtain ⟨b, found, display, closes⟩ := makeFrame_closes h balanced
  have mem : b ∈ d.buffers := List.mem_of_getElem? found
  obtain ⟨-, rfl⟩ | ⟨-, rfl⟩ := closes
  · refine confined.turned mem intact grows (fun _ => rfl) fun p there => ?_
    dsimp only [FrameLoop.turned] at there
    rw [DamageRing.current_rotateFor, Region.contains_empty] at there
    cases there
  · refine confined.turned mem intact grows (fun _ => rfl) fun p there => ?_
    have everything := congrArg (·.contains p) (everything_spoiled intact)
    exact Region.contains_ofRect.1 (everything.symm.trans there)

theorem step (confined : d.Confined σ.store) (step : Step d σ used d' σ') :
    d'.Confined σ'.store := by
  cases step with
  | damage region => exact confined.damage region
  | damageRect rect => exact confined.damageRect rect
  | resize sized h => exact confined.resize sized h
  | frame found h => exact confined.makeFrame h
  | other balanced grows =>
    exact
      { confined with
        intact := confined.intact.other balanced
        known := fun id entry => Nat.lt_of_lt_of_le (confined.known id entry) grows }

theorem run (confined : d.Confined σ.store) (run : Run d σ used d' σ') :
    d'.Confined σ'.store := by
  induction run with
  | start => exact confined
  | next _ step ih => exact ih.step step

end Confined

/-- No frame is handed anything beyond the bounds. -/
theorem Confined.rotateFor {s : Store} (confined : d.Confined s) (mem : b ∈ d.buffers)
    (alive : BufferId → Bool) {p : Point}
    (there : (d.ring.rotateFor alive b.id).2.contains p) : d.bounds.contains p := by
  rw [DamageRing.damage_rotateFor] at there
  cases found : (d.ring.prune alive).missed? b.id with
  | none =>
    rw [found] at there
    change (Region.ofRect d.ring.everything).contains p at there
    rw [confined.intact.everything_ring] at there
    exact Region.contains_ofRect.1 there
  | some missed =>
    rw [found] at there
    rw [DamageRing.missed?_prune] at found
    split at found
    · rcases Region.contains_union.1 there with old | now
      · exact confined.missed b mem missed found p old
      · exact confined.current p now
    · cases found

/-! ## What a failed frame owes -/

/-- What a buffer has missed and the current damage make up the bounds. A buffer without an entry
will be drawn as a whole. -/
def Owes (d : FrameLoop) (id : BufferId) : Prop :=
  ∀ p, d.bounds.contains p → ∀ missed ∈ d.ring.missed? id,
    missed.contains p ∨ d.ring.current.contains p

theorem owes_of_everything (everything : d.ring.current = Region.ofRect d.bounds) (id : BufferId) :
    d.Owes id := by
  intro p inside missed _
  rw [everything]
  exact .inr (Region.contains_ofRect.2 inside)

namespace Owes

variable {id : BufferId}

/-- A frame on another buffer moves the debt into the entry. -/
theorem turned (owes : d.Owes id) (alive : BufferId → Bool) (apart : id ≠ b.id) :
    (d.turned alive b).Owes id := by
  intro p inside missed entry
  change missed ∈ (d.ring.rotateFor alive b.id).1.missed? id at entry
  rw [DamageRing.missed?_rotateFor, if_neg apart, DamageRing.missed?_prune] at entry
  obtain ⟨before, found, rfl⟩ := Option.map_eq_some_iff.1 entry
  split at found
  · exact .inl (Region.contains_union.2 (owes p inside before found))
  · cases found

theorem step (owes : d.Owes id) (confined : d.Confined σ.store) (step : Step d σ used d' σ')
    (unused : id ∉ used) : d'.Owes id := by
  cases step with
  | damage region =>
    intro p inside missed entry
    exact (owes p inside missed entry).imp_right
      fun there => (d.ring.contains_current_add region p).2 (.inl there)
  | damageRect rect =>
    intro p inside missed entry
    change missed ∈ (d.ring.addRect rect).missed? id at entry
    rw [DamageRing.missed?_addRect] at entry
    exact (owes p inside missed entry).imp_right
      fun there => (d.ring.contains_current_addRect rect p).2 (.inl there)
  | resize sized h =>
    obtain ⟨rfl, rfl⟩ | ⟨-, everything⟩ := confined.intact.resize h sized
    · exact owes
    · exact owes_of_everything everything id
  | frame found h =>
    have intact := confined.intact.makeFrame h
    obtain ⟨k, balanced⟩ := confined.intact.owned
    obtain ⟨b, found', display, ⟨-, rfl⟩ | ⟨-, rfl⟩⟩ := makeFrame_closes h balanced
    · cases found.symm.trans found'
      exact owes.turned σ.store.isAlive (List.ne_of_not_mem_cons unused)
    · exact owes_of_everything (everything_spoiled intact) id
  | other balanced grows => exact owes

theorem run (owes : d.Owes id) (confined : d.Confined σ.store) (run : Run d σ used d' σ')
    (unused : id ∉ used) : d'.Owes id := by
  induction run with
  | start => exact owes
  | next before step ih =>
    rw [List.mem_append, not_or] at unused
    exact (ih unused.1).step (confined.run before) step unused.2

end Owes

/-- A buffer to which a full redraw is owed gets exactly that. -/
theorem Owes.rotateFor {s : Store} (owes : d.Owes b.id) (confined : d.Confined s)
    (mem : b ∈ d.buffers) (alive : BufferId → Bool) (p : Point) :
    (d.ring.rotateFor alive b.id).2.contains p ↔ d.bounds.contains p := by
  refine ⟨confined.rotateFor mem alive, fun inside => ?_⟩
  rw [DamageRing.damage_rotateFor]
  cases found : (d.ring.prune alive).missed? b.id with
  | none =>
    change (Region.ofRect d.ring.everything).contains p
    rw [confined.intact.everything_ring]
    exact Region.contains_ofRect.2 inside
  | some missed =>
    rw [DamageRing.missed?_prune] at found
    split at found
    · exact Region.contains_union.2 (owes p inside missed found)
    · cases found

/-- After a frame that failed, the next frame that uses a buffer is handed exactly the bounds,
whatever happens in between and however that frame goes. -/
theorem failed_frame_owes_full_redraw {output : OutputId} {width height : UInt32}
    {swapchain : Swapchain} {renderer : Renderer} {display : HeadlessDisplay}
    {σ₀ σ₁ σ₂ σ₃ σ₄ : Session} {d₁ d₂ d₃ d₄ : FrameLoop} {used later : List BufferId}
    (sized : Sized width height) (balanced : σ₀.store.Balanced (display.config.holding ++ k))
    (made : FrameLoop.new output width height swapchain renderer display σ₀ = .ok d₁ σ₁)
    (before : Run d₁ σ₁ used d₂ σ₂)
    (frame : d₂.makeFrame α c painter σ₂ = .ok (d₃, o) σ₃) (failed : o.result ≠ .ok true)
    (between : Run d₃ σ₃ later d₄ σ₄) :
    d₄.ring.bounds = some d₄.bounds ∧
      ∃ b, d₄.buffers[d₄.next]? = some b ∧ (b.id ∉ later → ∃ damage : Region,
        (∀ p, damage.contains p ↔ d₄.bounds.contains p) ∧
        (∀ σ, σ.store = σ₄.store → takeBuffer { d₄ with frames := d₄.frames + 1 } σ =
          .ok (d₄.turned σ.store.isAlive b, b, damage)
            { σ with store := σ.store.retain b.id }) ∧
        ∀ (β : Type) [Scalar β] c' painter' d₅ o' σ₅,
          d₄.makeFrame β c' painter' σ₄ = .ok (d₅, o') σ₅ →
          ∀ region stats, o'.painted = some (region, stats) → region = damage) := by
  have confined₂ : d₂.Confined σ₂.store := (Confined.new sized balanced made).run before
  have confined₃ := confined₂.makeFrame frame
  have confined₄ := confined₃.run between
  obtain ⟨b, found⟩ : ∃ b, d₄.buffers[d₄.next]? = some b :=
    ⟨_, List.getElem?_eq_getElem confined₄.next⟩
  refine ⟨confined₄.intact.bounds_ring, b, found, fun unused =>
    ⟨(d₄.ring.rotateFor σ₄.store.isAlive b.id).2, ?_, fun σ same => ?_, ?_⟩⟩
  · have owes₃ : d₃.Owes b.id := by
      obtain ⟨k, owned⟩ := confined₂.intact.owned
      obtain ⟨b', -, display, ⟨accepted, -⟩ | ⟨-, rfl⟩⟩ := makeFrame_closes frame owned
      · exact absurd accepted failed
      · exact owes_of_everything (everything_spoiled confined₃.intact) b.id
    have owes₄ := owes₃.run confined₃ between unused
    exact owes₄.rotateFor confined₄ (List.mem_of_getElem? found) σ₄.store.isAlive
  · rw [takeBuffer_eq found, same]
  · intro β _ c' painter' d₅ o' σ₅ frame' region stats reported
    obtain ⟨k, owned⟩ := confined₄.intact.owned
    obtain ⟨b', found', -, -, ending⟩ := makeFrame_keeps frame' owned
    cases found.symm.trans found'
    obtain ⟨none, -⟩ | ⟨⟨painted⟩⟩ := ending
    · cases none.symm.trans reported
    · have given := Prod.mk.inj (Option.some.inj (painted.reported.symm.trans reported))
      rw [← given.1, painted.damage]

/-- A painter that draws nothing. -/
def paintNothing (_ : Region) : Painting := ⟨[], none⟩

/-- The first of two buffers is drawn and rejected, the second is drawn and accepted; then the first
is to be drawn again as a whole. -/
theorem rejected_buffer_is_redrawn :
    ∃ (d₁ d₂ d₃ : FrameLoop) (σ₁ σ₂ σ₃ : Session) (o₁ o₂ : FrameOutcome) (b b' : Buffer),
      FrameLoop.new ⟨1⟩ 2 1 .double {} (.new ⟨1⟩ false) (.new default) = .ok d₁ σ₁ ∧
      d₁.makeFrame Float { rejects := true } paintNothing σ₁ = .ok (d₂, o₁) σ₂ ∧
      o₁.result = .ok false ∧ d₁.buffers[d₁.next]? = some b ∧
      d₂.makeFrame Float {} paintNothing σ₂ = .ok (d₃, o₂) σ₃ ∧
      o₂.result = .ok true ∧ d₂.buffers[d₂.next]? = some b' ∧
      d₃.buffers[d₃.next]? = some b ∧ b.id ≠ b'.id ∧
      ∃ damage : Region, (∀ p, damage.contains p ↔ d₃.bounds.contains p) ∧
        takeBuffer { d₃ with frames := d₃.frames + 1 } σ₃ =
          .ok (d₃.turned σ₃.store.isAlive b, b, damage)
            { σ₃ with store := σ₃.store.retain b.id } := by
  have run : Returns (FrameLoop.new ⟨1⟩ 2 1 .double {} (.new ⟨1⟩ false)) (.new default) fun d σ =>
      (d.buffers[d.next]?).isSome ∧
      Returns (d.makeFrame Float { rejects := true } paintNothing) σ fun made σ₁ =>
        made.2.result.toOption = some false ∧ (made.1.buffers[made.1.next]?).isSome ∧
        Returns (made.1.makeFrame Float {} paintNothing) σ₁ fun made' _ =>
          made'.2.result.toOption = some true ∧
          made'.1.buffers[made'.1.next]? = d.buffers[d.next]? ∧
          (d.buffers[d.next]?).map (·.id) ≠ (made.1.buffers[made.1.next]?).map (·.id) := by
    decide +kernel
  have answer {x : Except PassError Bool} {accepted : Bool} (h : x.toOption = some accepted) :
      x = .ok accepted := by
    cases x <;> simp_all [Except.toOption]
  obtain ⟨d₁, σ₁, made, some₁, run₁⟩ := run.exists_ok
  obtain ⟨⟨d₂, o₁⟩, σ₂, frame₁, rejected, some₂, run₂⟩ := run₁.exists_ok
  obtain ⟨⟨d₃, o₂⟩, σ₃, frame₂, accepted, again, apart⟩ := run₂.exists_ok
  obtain ⟨b, first⟩ := Option.isSome_iff_exists.1 some₁
  obtain ⟨b', second⟩ := Option.isSome_iff_exists.1 some₂
  have third : d₃.buffers[d₃.next]? = some b := again.trans first
  have unused : b.id ≠ b'.id := by
    simpa [first, second] using apart
  have sized : Sized 2 1 := ⟨by decide, by decide, by decide, by decide⟩
  have failed : o₁.result ≠ .ok true := by
    rw [answer rejected]
    nofun
  obtain ⟨-, c, found, full⟩ := failed_frame_owes_full_redraw (k := ⟨[], []⟩) sized
    Store.balanced_empty made .start frame₁ failed (.next .start (.frame second frame₂))
  cases third.symm.trans found
  obtain ⟨damage, whole, taken, -⟩ := full (by simpa using unused)
  exact ⟨d₁, d₂, d₃, σ₁, σ₂, σ₃, o₁, o₂, b, b', made, frame₁, answer rejected, first, frame₂,
    answer accepted, second, third, unused, damage, whole, taken σ₃ rfl⟩

end Compositor.FrameLoop
