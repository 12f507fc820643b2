import Compositor.Frame
import Compositor.Proofs.Draw.Pass
import Compositor.Proofs.Output.Headless

/-!
# What the parts of a frame do

A frame takes a handle of the next buffer, turns the ring for it, opens a pass on it, and later
closes the pass and offers the buffer to the display. Each part is read once: what becomes of the
loop, and what becomes of the store. A loop holds a handle of each of its buffers and of what its
display shows; the handle of a frame goes to the display or is given up.
-/

namespace Compositor

open Compositor.Action

variable {σ σ' : Session}

theorem FrameRecord.quiet_enter (r : FrameRecord) (phase : Phase) : Quiet (r.enter phase) :=
  quiet_now.bind fun _ => (quiet_emit _).bind fun _ => quiet_pure _

theorem FrameRecord.quiet_leave (r : FrameRecord) (phase : Phase) : Quiet (r.leave phase) :=
  quiet_now.bind fun _ => (quiet_emit _).bind fun _ => quiet_pure _

theorem OpenFrame.quiet_report (f : OpenFrame) (span : Option Duration) :
    Quiet (f.report span) := by
  unfold OpenFrame.report
  refine (quiet_emit _).bind fun _ => ?_
  split
  · exact quiet_emit _
  · exact quiet_pure ()

theorem HeadlessDisplay.Verdict.settle_ok {v : HeadlessDisplay.Verdict} {accepted : Bool}
    (h : v.settle σ = .ok accepted σ') : accepted = v.accepted ∧ σ'.store = v.store := by
  obtain ⟨u, σ₁, replacing, next⟩ := bind_ok h
  obtain ⟨u, σ₂, noting, ending⟩ := bind_ok next
  obtain ⟨rfl, rfl⟩ := pure_ok ending
  exact ⟨rfl, (quiet_notes _ noting).trans (modifyStore_ok replacing)⟩

namespace Painting

variable {α : Type} [Scalar α] {painting : Painting} {p : Pass} {drawn : Pass × List PassTally}

/-- A painting is drawn if its strokes are, and nothing breaks it off after them. -/
theorem draw_ok : painting.draw α p σ = .ok drawn σ' ↔
    p.strokes α painting.strokes σ = .ok drawn σ' ∧ painting.fault = none := by
  constructor
  · intro h
    obtain ⟨drawn', σ₁, strokes, ending⟩ := bind_ok h
    cases broken : painting.fault with
    | some fault =>
      rw [broken] at ending
      cases ending
    | none =>
      rw [broken] at ending
      obtain ⟨rfl, rfl⟩ := pure_ok ending
      exact ⟨strokes, rfl⟩
  · rintro ⟨strokes, unbroken⟩
    refine bind_eq_ok strokes ?_
    rw [unbroken]
    rfl

/-- The strokes before a fault are drawn. -/
theorem draw_error {fault : Fault} (strokes : p.strokes α painting.strokes σ = .ok drawn σ')
    (broken : painting.fault = some fault) : painting.draw α p σ = .error fault σ' := by
  refine (bind_eq strokes).trans ?_
  rw [broken]
  rfl

end Painting

namespace FrameLoop

variable {d d' : FrameLoop} {c : Conditions}

/-- The handles of the swapchain. -/
def swapchainHolding (d : FrameLoop) : Holding := ⟨d.buffers.map (·.id), []⟩

/-- The handles that a loop owns between two frames. -/
def holding (d : FrameLoop) : Holding := d.display.config.holding ++ d.swapchainHolding

theorem mem_holding {b : Buffer} (mem : b ∈ d.buffers) (k : Holding) :
    b.id ∈ (d.holding ++ k).buffers :=
  List.mem_append_left _ (List.mem_append_right _ (List.mem_map_of_mem mem))

/-- The loop after its ring turned for a buffer. -/
def turned (d : FrameLoop) (alive : BufferId → Bool) (b : Buffer) : FrameLoop :=
  { d with
    frames := d.frames + 1
    next := (d.next + 1) % d.buffers.length
    ring := (d.ring.rotateFor alive b.id).1 }

/-- The loop after a frame that failed. -/
def spoiled (d : FrameLoop) : FrameLoop := { d with ring := d.ring.addEverything }

/-! ## Beginning -/

theorem abandon_ok {r : FrameRecord} {b : Buffer} {message : String} {error : PassError}
    (h : d.abandon r b message error σ = .ok d' σ') :
    d' = d.spoiled ∧ σ'.store = σ.store.release b.id := by
  obtain ⟨u, σ₁, noting, h₁⟩ := bind_ok h
  obtain ⟨u, σ₂, emitting, h₂⟩ := bind_ok h₁
  obtain ⟨u, σ₃, releasing, ending⟩ := bind_ok h₂
  obtain ⟨rfl, rfl⟩ := pure_ok ending
  refine ⟨rfl, ?_⟩
  rw [modifyStore_ok releasing, quiet_emit _ emitting, quiet_note _ noting]

theorem takeBuffer_ok {b : Buffer} {damage : Region}
    (h : takeBuffer { d with frames := d.frames + 1 } σ = .ok (d', b, damage) σ') :
    d.buffers[d.next]? = some b ∧ d' = d.turned σ.store.isAlive b ∧
      damage = (d.ring.rotateFor σ.store.isAlive b.id).2 ∧
      σ' = { σ with store := σ.store.retain b.id } := by
  unfold takeBuffer at h
  dsimp only at h
  cases found : d.buffers[d.next]? with
  | none =>
    rw [found] at h
    cases h
  | some buffer =>
    rw [found] at h
    obtain ⟨s, σ₁, reading, next⟩ := bind_ok h
    obtain ⟨rfl, rfl⟩ := get_ok reading
    obtain ⟨u, σ₂, retaining, ending⟩ := bind_ok next
    cases retaining
    obtain ⟨same, rfl⟩ := pure_ok ending
    cases same
    exact ⟨rfl, rfl, rfl, rfl⟩

theorem takeBuffer_eq {b : Buffer} (found : d.buffers[d.next]? = some b) (σ : Session) :
    takeBuffer { d with frames := d.frames + 1 } σ =
      .ok (d.turned σ.store.isAlive b, b, (d.ring.rotateFor σ.store.isAlive b.id).2)
        { σ with store := σ.store.retain b.id } := by
  unfold takeBuffer
  simp only [found]
  rfl

theorem startPass_result {b : Buffer} {result : Except PassError Pass}
    (h : d.startPass c b σ = .ok result σ') :
    (∃ p, result = .ok p ∧ σ.store.openAccess b .readWrite = .ok (p.target, σ'.store)) ∨
      ∃ error, result = .error error ∧ σ'.store = σ.store := by
  unfold startPass at h
  cases refused : c.startError with
  | none =>
    rw [refused] at h
    exact Renderer.start_result h
  | some error =>
    rw [refused] at h
    obtain ⟨rfl, rfl⟩ := pure_ok h
    exact .inr ⟨error, rfl, rfl⟩

/-- A frame begins with a handle of the next buffer and what the ring hands out for it. Either a
pass is open on that buffer, or everything is damaged and the handle is given up. -/
theorem beginFrame_result {result : Except PassError OpenFrame}
    (h : d.beginFrame c σ = .ok (d', result) σ') :
    ∃ b, d.buffers[d.next]? = some b ∧
      ((∃ f, result = .ok f ∧ d' = d.turned σ.store.isAlive b ∧ f.buffer = b ∧
          f.damage = (d.ring.rotateFor σ.store.isAlive b.id).2 ∧
          (σ.store.retain b.id).openAccess b .readWrite = .ok (f.pass.target, σ'.store)) ∨
        ∃ error, result = .error error ∧ d' = (d.turned σ.store.isAlive b).spoiled ∧
          σ'.store = (σ.store.retain b.id).release b.id) := by
  unfold beginFrame at h
  obtain ⟨t, σ₁, timing, h₁⟩ := bind_ok h
  obtain ⟨r₁, σ₂, entering, h₂⟩ := bind_ok h₁
  obtain ⟨⟨d₁, b, damage⟩, σ₃, taking, h₃⟩ := bind_ok h₂
  obtain ⟨area, σ₄, measuring, h₄⟩ := bind_ok h₃
  obtain ⟨u, σ₅, emitting, h₅⟩ := bind_ok h₄
  obtain ⟨r₂, σ₆, leaving, h₆⟩ := bind_ok h₅
  obtain ⟨r₃, σ₇, entering', h₇⟩ := bind_ok h₆
  obtain ⟨started, σ₈, starting, h₈⟩ := bind_ok h₇
  have before : σ₂.store = σ.store :=
    (FrameRecord.quiet_enter _ _ entering).trans (quiet_now timing)
  obtain ⟨found, turn, given, rfl⟩ := takeBuffer_ok taking
  obtain ⟨-, rfl⟩ := ofExcept_ok (unwinding_ok.1 measuring)
  have between : σ₇.store = σ.store.retain b.id :=
    calc σ₇.store
      _ = σ₆.store := FrameRecord.quiet_enter _ _ entering'
      _ = σ₅.store := FrameRecord.quiet_leave _ _ leaving
      _ = σ₂.store.retain b.id := quiet_emit _ emitting
      _ = σ.store.retain b.id := by rw [before]
  rw [before] at turn given
  refine ⟨b, found, ?_⟩
  obtain ⟨p, rfl, opened⟩ | ⟨error, rfl, same⟩ := startPass_result starting
  · obtain ⟨u, σ₉, emitting', ending⟩ := bind_ok h₈
    obtain ⟨same, rfl⟩ := pure_ok ending
    cases same
    rw [between] at opened
    exact .inl ⟨_, rfl, turn, rfl, given, by rwa [quiet_emit _ emitting']⟩
  · obtain ⟨d₂, σ₉, abandoning, ending⟩ := bind_ok h₈
    obtain ⟨same', rfl⟩ := pure_ok ending
    cases same'
    obtain ⟨spoilt, released⟩ := abandon_ok abandoning
    rw [turn] at spoilt
    exact .inr ⟨error, rfl, spoilt, by rw [released, same, between]⟩

/-! ## Ending -/

theorem finishPass_ok {p : Pass} {result : Except PassError (Option Duration)}
    (h : finishPass c p σ = .ok result σ') : σ'.store = σ.store.closeAccess p.target := by
  unfold finishPass at h
  cases failing : c.finishError with
  | none =>
    rw [failing] at h
    obtain ⟨span, σ₁, finishing, ending⟩ := bind_ok h
    obtain ⟨rfl, rfl⟩ := pure_ok ending
    exact Pass.finish_ok finishing
  | some error =>
    rw [failing] at h
    obtain ⟨u, σ₁, closing, ending⟩ := bind_ok h
    obtain ⟨rfl, rfl⟩ := pure_ok ending
    exact closeAccess_ok closing

/-- The loop after a frame, whose outcome decides whether its pixels can be trusted. -/
def Closes (d d' : FrameLoop) (trusted : Prop) : Prop :=
  ∃ display, trusted ∧ d' = { d with display } ∨ ¬ trusted ∧ d' = { d with display }.spoiled

theorem Closes.swapchainHolding {trusted : Prop} (h : Closes d d' trusted) :
    d'.swapchainHolding = d.swapchainHolding := by
  obtain ⟨display, ⟨-, rfl⟩ | ⟨-, rfl⟩⟩ := h <;> rfl

/-- Nothing outside a holding changed hands, and what is in it keeps its pixels. -/
def Settles (s : Store) (d' : FrameLoop) (k : Holding) (s' : Store) : Prop :=
  s'.Balanced (d'.display.config.holding ++ k) ∧ ∀ id ∈ k.buffers, s'.pixels id = s.pixels id

variable {k : Holding}

/-- The request is given up unseen, or the display answers it. -/
theorem commit_steps {request : OutputRequest} {accepted : Bool}
    (h : d.commit c request σ = .ok (d', accepted) σ') :
    d' = d ∧ σ'.store = request.discard σ.store ∨
      d' = { d with display := (d.display.commit σ.store request).1 } ∧
        σ'.store = (d.display.commit σ.store request).2.store := by
  unfold commit at h
  by_cases rejected : c.rejects
  · simp only [rejected, ↓reduceIte] at h
    obtain ⟨u, σ₁, discarding, ending⟩ := bind_ok h
    obtain ⟨same, rfl⟩ := pure_ok ending
    cases same
    exact .inl ⟨rfl, modifyStore_ok discarding⟩
  · simp only [rejected] at h
    obtain ⟨s, σ₁, reading, next⟩ := bind_ok h
    obtain ⟨rfl, rfl⟩ := get_ok reading
    obtain ⟨verdict, σ₂, settling, ending⟩ := bind_ok next
    obtain ⟨same, rfl⟩ := pure_ok ending
    cases same
    exact .inr ⟨rfl, (HeadlessDisplay.Verdict.settle_ok settling).2⟩

/-- Offering a request to the display. -/
theorem commit_ok {request : OutputRequest} {accepted : Bool}
    (h : d.commit c request σ = .ok (d', accepted) σ')
    (balanced : σ.store.Balanced (request.staged.holding ++ (d.display.config.holding ++ k))) :
    (∃ display, d' = { d with display }) ∧ Settles σ.store d' k σ'.store := by
  obtain ⟨rfl, same⟩ | ⟨rfl, same⟩ := commit_steps h
  · refine ⟨⟨d'.display, rfl⟩, ?_⟩
    rw [same]
    exact ⟨balanced.dispose,
      fun id mem => (balanced.keeps_dispose (List.mem_append_right _ mem)).pixels⟩
  · refine ⟨⟨_, rfl⟩, ?_⟩
    rw [Settles, same]
    exact HeadlessDisplay.commit_keeps balanced

theorem heed_ok {r : FrameRecord} {accepted : Bool} (h : d.heed r accepted σ = .ok d' σ') :
    d' = (if accepted then d else d.spoiled) ∧ σ'.store = σ.store := by
  unfold heed at h
  cases accepted with
  | true =>
    obtain ⟨u, σ₁, noting, ending⟩ := bind_ok h
    obtain ⟨rfl, rfl⟩ := pure_ok ending
    exact ⟨rfl, quiet_note _ noting⟩
  | false =>
    obtain ⟨u, σ₁, noting, ending⟩ := bind_ok h
    obtain ⟨rfl, rfl⟩ := pure_ok ending
    exact ⟨rfl, quiet_note _ noting⟩

/-- The request is committed, and the answer heeded. -/
theorem present_steps {r : FrameRecord} {b : Buffer} {damage : Region} {accepted : Bool}
    (h : d.present c r b damage σ = .ok (d', accepted) σ') :
    ∃ d₁ σ₁ σ₂, σ₁.store = σ.store ∧
      d.commit c (OutputRequest.showing b damage) σ₁ = .ok (d₁, accepted) σ₂ ∧
      d' = (if accepted then d₁ else d₁.spoiled) ∧ σ'.store = σ₂.store := by
  unfold present at h
  obtain ⟨r₁, σ₁, entering, h₁⟩ := bind_ok h
  obtain ⟨⟨d₁, answer⟩, σ₂, committing, h₂⟩ := bind_ok h₁
  obtain ⟨d₂, σ₃, heeding, h₃⟩ := bind_ok h₂
  obtain ⟨t, σ₄, timing, h₄⟩ := bind_ok h₃
  obtain ⟨u, σ₅, emitting, h₅⟩ := bind_ok h₄
  obtain ⟨r₂, σ₆, leaving, h₆⟩ := bind_ok h₅
  obtain ⟨u, σ₇, emitting', ending⟩ := bind_ok h₆
  obtain ⟨same, rfl⟩ := pure_ok ending
  cases same
  obtain ⟨outcome, heeded⟩ := heed_ok heeding
  have after : σ₇.store = σ₂.store :=
    calc σ₇.store
      _ = σ₆.store := quiet_emit _ emitting'
      _ = σ₅.store := FrameRecord.quiet_leave _ _ leaving
      _ = σ₄.store := quiet_emit _ emitting
      _ = σ₃.store := quiet_now timing
      _ = σ₂.store := heeded
  exact ⟨d₁, σ₁, σ₂, FrameRecord.quiet_enter _ _ entering, committing, outcome, after⟩

/-- The handle of the frame is what the request holds. -/
theorem present_ok {r : FrameRecord} {b : Buffer} {damage : Region} {accepted : Bool}
    (h : d.present c r b damage σ = .ok (d', accepted) σ')
    (balanced : σ.store.Balanced (.single b.id ++ (d.display.config.holding ++ k))) :
    Closes d d' (accepted = true) ∧ Settles σ.store d' k σ'.store := by
  obtain ⟨d₁, σ₁, σ₂, before, committing, outcome, after⟩ := present_steps h
  rw [← before] at balanced
  obtain ⟨⟨display, rfl⟩, balanced', pixels⟩ := commit_ok committing balanced
  refine ⟨⟨display, ?_⟩, ?_, fun id held => ?_⟩
  · cases accepted with
    | true => exact .inl ⟨rfl, outcome⟩
    | false => exact .inr ⟨Bool.false_ne_true, outcome⟩
  · rw [after, outcome]
    split <;> exact balanced'
  · rw [after, pixels id held, before]

/-- The pass is closed; then the frame fails and drops its buffer, or the display gets it. -/
theorem endFrame_steps {f : OpenFrame} {result : Except PassError Bool}
    (h : d.endFrame c f σ = .ok (d', result) σ') :
    (∃ error, result = .error error ∧ d' = d.spoiled ∧ σ'.store = f.drop σ.store) ∨
      ∃ r accepted σ₁, result = .ok accepted ∧ σ₁.store = σ.store.closeAccess f.pass.target ∧
        d.present c r f.buffer f.damage σ₁ = .ok (d', accepted) σ' := by
  unfold endFrame at h
  obtain ⟨r₁, σ₁, leaving, h₁⟩ := bind_ok h
  obtain ⟨r₂, σ₂, entering, h₂⟩ := bind_ok h₁
  obtain ⟨finished, σ₃, finishing, h₃⟩ := bind_ok h₂
  have closed : σ₃.store = σ.store.closeAccess f.pass.target := by
    rw [finishPass_ok finishing, FrameRecord.quiet_enter _ _ entering,
      FrameRecord.quiet_leave _ _ leaving]
  cases finished with
  | error error =>
    obtain ⟨d₁, σ₄, abandoning, ending⟩ := bind_ok h₃
    obtain ⟨same, rfl⟩ := pure_ok ending
    cases same
    obtain ⟨rfl, released⟩ := abandon_ok abandoning
    exact .inl ⟨error, rfl, rfl, by rw [released, closed, OpenFrame.drop]⟩
  | ok span =>
    obtain ⟨u, σ₄, reporting, h₄⟩ := bind_ok h₃
    obtain ⟨r₃, σ₅, leaving', h₅⟩ := bind_ok h₄
    obtain ⟨⟨d₁, accepted⟩, σ₆, presenting, ending⟩ := bind_ok h₅
    obtain ⟨same, rfl⟩ := pure_ok ending
    cases same
    have before : σ₅.store = σ₃.store :=
      (FrameRecord.quiet_leave _ _ leaving').trans (f.quiet_report span reporting)
    exact .inr ⟨r₃, accepted, σ₅, rfl, before.trans closed, presenting⟩

/-- Closing a pass and offering its buffer to the display. -/
theorem endFrame_ok {f : OpenFrame} {result : Except PassError Bool}
    (h : d.endFrame c f σ = .ok (d', result) σ')
    (balanced : σ.store.Balanced (.single f.pass.target.buffer.id ++
      (.single f.buffer.id ++ (d.display.config.holding ++ k)))) :
    Closes d d' (result = .ok true) ∧ Settles σ.store d' k σ'.store := by
  have pixels (id : BufferId) (held : id ∈ k.buffers) :
      (σ.store.closeAccess f.pass.target).pixels id = σ.store.pixels id :=
    balanced.pixels_closeAccess (List.mem_append_right _ (List.mem_append_right _ held))
  obtain ⟨error, rfl, rfl, same⟩ | ⟨r, accepted, σ₁, rfl, closed, presenting⟩ := endFrame_steps h
  · refine ⟨⟨d.display, .inr ⟨nofun, rfl⟩⟩, ?_⟩
    rw [Settles, same]
    refine ⟨balanced.closeAccess.release, fun id held => ?_⟩
    rw [← pixels id held]
    exact (balanced.closeAccess.keeps_release (List.mem_append_right _ held)).pixels
  · obtain ⟨⟨display, outcome⟩, balanced', pixels'⟩ :=
      present_ok presenting (closed ▸ balanced.closeAccess)
    refine ⟨⟨display, ?_⟩, balanced', fun id held => ?_⟩
    · simpa using outcome
    · rw [pixels' id held, closed, pixels id held]

/-! ## Nothing breaks off after the drawing -/

theorem total_enter (r : FrameRecord) (phase : Phase) : Total (r.enter phase) :=
  total_now.bind fun _ => (total_emit _).bind fun _ => total_pure _

theorem total_leave (r : FrameRecord) (phase : Phase) : Total (r.leave phase) :=
  total_now.bind fun _ => (total_emit _).bind fun _ => total_pure _

theorem total_report (f : OpenFrame) (span : Option Duration) : Total (f.report span) := by
  unfold OpenFrame.report
  refine (total_emit _).bind fun _ => ?_
  split
  · exact total_emit _
  · exact total_pure ()

theorem total_abandon (d : FrameLoop) (r : FrameRecord) (b : Buffer) (message : String)
    (error : PassError) : Total (d.abandon r b message error) :=
  (total_note _).bind fun _ => (total_emit _).bind fun _ =>
    (total_modifyStore _).bind fun _ => total_pure _

theorem total_finishPass (c : Conditions) (p : Pass) : Total (finishPass c p) := by
  unfold finishPass
  cases c.finishError with
  | none => exact p.total_finish.bind fun _ => total_pure _
  | some error => exact p.total_discard.bind fun _ => total_pure _

theorem total_settle (v : HeadlessDisplay.Verdict) : Total v.settle :=
  (total_modifyStore _).bind fun _ => (total_notes _).bind fun _ => total_pure _

theorem total_commit (d : FrameLoop) (c : Conditions) (request : OutputRequest) :
    Total (d.commit c request) := by
  unfold commit
  split
  · exact (total_modifyStore _).bind fun _ => total_pure _
  · exact total_get.bind fun _ => (total_settle _).bind fun _ => total_pure _

theorem total_heed (d : FrameLoop) (r : FrameRecord) (accepted : Bool) :
    Total (d.heed r accepted) := by
  unfold heed
  cases accepted with
  | true => exact (total_note _).bind fun _ => total_pure _
  | false => exact (total_note _).bind fun _ => total_pure _

theorem total_present (d : FrameLoop) (c : Conditions) (r : FrameRecord) (b : Buffer)
    (damage : Region) : Total (d.present c r b damage) := by
  unfold present
  refine (total_enter _ _).bind fun _ => (total_commit _ _ _).bind fun _ => ?_
  refine (total_heed _ _ _).bind fun _ => ?_
  refine total_now.bind fun _ => (total_emit _).bind fun _ => ?_
  exact (total_leave _ _).bind fun _ => (total_emit _).bind fun _ => total_pure _

/-- A frame that was drawn returns, whatever fails then. -/
theorem total_endFrame (d : FrameLoop) (c : Conditions) (f : OpenFrame) :
    Total (d.endFrame c f) := by
  unfold endFrame
  refine (total_leave _ _).bind fun _ => (total_enter _ _).bind fun _ => ?_
  refine (total_finishPass c f.pass).bind fun finished => ?_
  cases finished with
  | error error => exact (total_abandon _ _ _ _ _).bind fun _ => total_pure _
  | ok span =>
    refine (total_report f span).bind fun _ => (total_leave _ _).bind fun _ => ?_
    exact (total_present _ _ _ _ _).bind fun _ => total_pure _

/-! ## The whole frame -/

variable {α : Type} [Scalar α]

theorem draw_touches {painting : Painting} {p p' : Pass} {stats : List PassTally}
    (h : painting.draw α p σ = .ok (p', stats) σ') (k : Holding) :
    p'.target = p.target ∧ Store.Touches k p.target.buffer.id σ.store σ'.store :=
  Pass.strokes_touches (Painting.draw_ok.1 h).1 k

/-- A frame either fails to begin, or it is painted and then closed. -/
theorem makeFrame_ok {painter : Region → Painting} {o : FrameOutcome}
    (h : d.makeFrame α c painter σ = .ok (d', o) σ') :
    ∃ d₁ opened σ₁, d.beginFrame c σ = .ok (d₁, opened) σ₁ ∧
      ((∃ error, opened = .error error ∧ o = ⟨.error error, none⟩ ∧ d' = d₁ ∧ σ' = σ₁) ∨
        ∃ f p stats σ₂ result, opened = .ok f ∧
          (painter f.damage).draw α f.pass σ₁ = .ok (p, stats) σ₂ ∧
          d₁.endFrame c { f with pass := p } σ₂ = .ok (d', result) σ' ∧
          o = ⟨result, some (f.damage, stats)⟩) := by
  obtain ⟨⟨d₁, opened⟩, σ₁, beginning, rest⟩ := bind_ok h
  refine ⟨d₁, opened, σ₁, beginning, ?_⟩
  cases opened with
  | error error =>
    obtain ⟨same, rfl⟩ := pure_ok rest
    cases same
    exact .inl ⟨error, rfl, rfl, rfl, rfl⟩
  | ok f =>
    obtain ⟨⟨p, stats⟩, σ₂, drawing, rest'⟩ := bind_ok rest
    obtain ⟨⟨d₂, result⟩, σ₃, closing, ending⟩ := bind_ok rest'
    obtain ⟨same, rfl⟩ := pure_ok ending
    cases same
    exact .inr ⟨f, p, stats, σ₂, result, rfl, unwinding_ok.1 drawing, closing, rfl⟩

/-- Once a frame was begun and drawn, it returns. -/
theorem makeFrame_of_drawn {painter : Region → Painting} {d₁ : FrameLoop} {f : OpenFrame}
    {σ₁ σ₂ : Session} {p : Pass} {stats : List PassTally}
    (begun : d.beginFrame c σ = .ok (d₁, .ok f) σ₁)
    (drawn : (painter f.damage).draw α f.pass σ₁ = .ok (p, stats) σ₂) :
    ∃ d' result σ', d.makeFrame α c painter σ =
      .ok (d', ⟨result, some (f.damage, stats)⟩) σ' := by
  obtain ⟨⟨d', result⟩, σ', closed⟩ := total_endFrame d₁ c { f with pass := p } σ₂
  refine ⟨d', result, σ', bind_eq_ok begun ?_⟩
  exact bind_eq_ok (unwinding_ok.2 drawn) (bind_eq_ok closed rfl)

end FrameLoop

end Compositor
