import Compositor.Proofs.Frame.Parts
import Compositor.Proofs.Session.Reports

/-!
# What a frame reports

Painting, locking and committing are silent: all that a frame reports, it reports itself, around
them. A frame gets as far as its render phase, its submit phase or its end, and each of these has
one list of events. A record takes in the events of its frame as they come, so the summary in the
end says what the events before it said. Main statement: the events of a frame are one of these
lists followed by that summary.
-/

namespace Compositor

open Compositor.Action

/-! ## Passes and displays are silent -/

theorem Renderer.silent_start (r : Renderer) (b : Buffer) : Silent (r.start b) := by
  unfold Renderer.start
  split
  · exact silent_pure _
  · refine (silent_openAccess b _).bind fun opened => ?_
    cases opened with
    | error cause => exact silent_pure _
    | ok target =>
      have noted (started : Option Instant) : Silent (do
          note ⟨.debug, "software pass begin", [("buffer", s!"{b.id.number}"),
            ("width", s!"{b.width}"), ("height", s!"{b.height}")]⟩
          return (.ok ⟨target, started, {}⟩ : Except PassError Pass)) :=
        (silent_note _).bind fun _ => silent_pure _
      dsimp only
      split
      · exact (silent_now.map some).bind noted
      · exact (silent_pure none).bind noted

namespace Pass

variable {α : Type} [Scalar α] (p : Pass)

theorem silent_skip (why : List (String × String)) : Silent (p.skip why) :=
  (silent_note _).bind fun _ => silent_pure _

theorem silent_paintTexture (d : TextureDraw) (g : Guard) : Silent (p.paintTexture α d g) := by
  unfold paintTexture
  dsimp only
  split
  · exact silent_note _
  · split
    · exact (silent_note _).bind fun _ => silent_get.bind fun _ => silent_withStore _
    · exact silent_pure _

theorem silent_drawTexture (d : TextureDraw) : Silent (p.drawTexture α d) := by
  unfold drawTexture
  cases d.texture with
  | remote width height => exact p.silent_skip _
  | stored b =>
    refine (silent_openAccess b _).bind fun opened => ?_
    cases opened with
    | error cause => exact p.silent_skip _
    | ok g =>
      exact ((p.silent_paintTexture d g).unwinding _).bind fun _ =>
        (silent_closeAccess g).bind fun _ => silent_pure _

theorem silent_fillRect (fill : RectFill) : Silent (p.fillRect fill) := by
  unfold fillRect
  refine (silent_note _).bind fun _ => ?_
  dsimp only
  split
  · exact (silent_withStore _).bind fun _ => silent_pure _
  · exact silent_pure _

theorem silent_stroke (s : Stroke) : Silent (p.stroke α s) := by
  cases s with
  | texture d => exact p.silent_drawTexture d
  | fill fill => exact p.silent_fillRect fill
  | pause span => exact (silent_pause span).bind fun _ => silent_pure _

theorem silent_strokes (strokes : List Stroke) : Silent (p.strokes α strokes) := by
  induction strokes generalizing p with
  | nil => exact silent_pure _
  | cons s rest ih =>
    exact (p.silent_stroke s).bind fun p => (ih p).bind fun _ => silent_pure _

theorem silent_finish : Silent p.finish := by
  have noted (elapsed : Option Duration) : Silent (do
      note ⟨.debug, "software pass submit", [p.logName, ("ops", s!"{p.stats.ops}"),
        ("skipped", s!"{p.stats.skipped}")]⟩
      p.discard
      return elapsed) :=
    (silent_note _).bind fun _ => (silent_closeAccess _).bind fun _ => silent_pure _
  unfold finish
  dsimp only
  split
  · exact (silent_now.map _).bind noted
  · exact (silent_pure none).bind noted

end Pass

theorem Painting.silent_draw {α : Type} [Scalar α] (painting : Painting) (p : Pass) :
    Silent (painting.draw α p) := by
  refine (p.silent_strokes _).bind fun drawn => ?_
  cases painting.fault with
  | none => exact silent_pure drawn
  | some fault => exact fun _ _ _ h => by cases h

theorem HeadlessDisplay.Verdict.silent_settle (v : HeadlessDisplay.Verdict) : Silent v.settle :=
  (silent_modifyStore _).bind fun _ => (silent_notes _).bind fun _ => silent_pure _

/-! ## Records -/

namespace FrameRecord

/-- Take in an event. -/
def take (r : FrameRecord) : TraceEvent → FrameRecord
  | .phaseBegin _ phase t => r.beginPhase phase t
  | .phaseEnd _ phase t => r.endPhase phase t
  | .damage _ _ _ _ area _ => { r with area }
  | .commit _ _ _ _ accepted _ => { r with committed := accepted }
  | .passBegin .. | .passSubmit .. | .drawSkipped .. | .summary _ => r

/-- The record after some events. -/
def after (r : FrameRecord) (events : List TraceEvent) : FrameRecord := events.foldl take r

theorem after_append (r : FrameRecord) (events more : List TraceEvent) :
    r.after (events ++ more) = (r.after events).after more :=
  List.foldl_append

/-- No event changes what frame a record is of, or when it started. -/
theorem fixed_after (r : FrameRecord) (events : List TraceEvent) :
    (r.after events).frame = r.frame ∧ (r.after events).output = r.output ∧
      (r.after events).start = r.start := by
  induction events generalizing r with
  | nil => exact ⟨rfl, rfl, rfl⟩
  | cons e events ih =>
    have step : (r.take e).frame = r.frame ∧ (r.take e).output = r.output ∧
        (r.take e).start = r.start := by
      cases e <;> exact ⟨rfl, rfl, rfl⟩
    exact step.1 ▸ step.2.1 ▸ step.2.2 ▸ ih (r.take e)

variable {r r' : FrameRecord} {phase : Phase} {σ σ' : Session}

theorem enter_ok (h : r.enter phase σ = .ok r' σ') :
    ∃ t, σ.Reports [.phaseBegin r.frame phase t] σ' ∧
      r' = r.after [.phaseBegin r.frame phase t] := by
  obtain ⟨t, σ₁, timing, h₁⟩ := bind_ok h
  obtain ⟨u, σ₂, emitting, ending⟩ := bind_ok h₁
  obtain ⟨rfl, rfl⟩ := pure_ok ending
  exact ⟨t, now_emit_ok (e := .phaseBegin r.frame phase) rfl timing emitting, rfl⟩

theorem leave_ok (h : r.leave phase σ = .ok r' σ') :
    ∃ t, σ.Reports [.phaseEnd r.frame phase t] σ' ∧
      r' = r.after [.phaseEnd r.frame phase t] := by
  obtain ⟨t, σ₁, timing, h₁⟩ := bind_ok h
  obtain ⟨u, σ₂, emitting, ending⟩ := bind_ok h₁
  obtain ⟨rfl, rfl⟩ := pure_ok ending
  exact ⟨t, now_emit_ok (e := .phaseEnd r.frame phase) rfl timing emitting, rfl⟩

end FrameRecord

namespace FrameLoop

variable {d d' : FrameLoop} {c : Conditions} {σ σ' : Session}

/-! ## The events of a frame -/

/-- What a frame reports of its damage phase. -/
def surveyed (frame : Nat) (output : OutputId) (b : Buffer) (rects area : Nat) (full : Bool)
    (t₁ t₂ : Instant) : List TraceEvent :=
  [.phaseBegin frame .damage t₁, .damage frame output b.id rects area full,
    .phaseEnd frame .damage t₂]

/-- What a frame reports until its render phase has begun. -/
def opening (frame : Nat) (output : OutputId) (b : Buffer) (rects area : Nat) (full : Bool)
    (t₁ t₂ t₃ : Instant) : List TraceEvent :=
  surveyed frame output b rects area full t₁ t₂ ++ [.phaseBegin frame .render t₃]

/-- What a frame reports of a pass that was submitted. -/
def submitted (frame : Nat) (b : Buffer) (stats : PassTally) (span : Option Duration) :
    List TraceEvent :=
  .passSubmit frame b.id stats.ops stats.skipped span ::
    if 0 < stats.skipped then [.drawSkipped frame b.id stats.skipped] else []

theorem after_submitted (r : FrameRecord) (frame : Nat) (b : Buffer) (stats : PassTally)
    (span : Option Duration) : r.after (submitted frame b stats span) = r := by
  unfold submitted
  split <;> rfl

/-- What a frame reports after its pass was drawn, until its commit phase has ended. -/
def closing (frame : Nat) (output : OutputId) (b : Buffer) (stats : PassTally)
    (span : Option Duration) (fields : FieldMask) (accepted : Bool)
    (t₄ t₅ t₆ t₇ t₈ t₉ : Instant) : List TraceEvent :=
  [.phaseEnd frame .render t₄, .phaseBegin frame .submit t₅] ++
    (submitted frame b stats span ++
      [.phaseEnd frame .submit t₆, .phaseBegin frame .commit t₇,
        .commit frame output (some b.id) fields accepted t₈, .phaseEnd frame .commit t₉])

/-- What a frame reports after its pass was drawn, until it is summed up. -/
inductive Ending (frame : Nat) (output : OutputId) (c : Conditions) (b : Buffer) :
    Except PassError Bool → List TraceEvent → Prop
  | dropped {e t₄ t₅} : c.finishError = some e → Ending frame output c b (.error e)
    [.phaseEnd frame .render t₄, .phaseBegin frame .submit t₅]
  | shown {accepted stats span fields t₄ t₅ t₆ t₇ t₈ t₉} : c.finishError = none →
    Ending frame output c b (.ok accepted)
      (closing frame output b stats span fields accepted t₄ t₅ t₆ t₇ t₈ t₉)

/-- What a frame reports until it is summed up, and how it went. -/
inductive Story (frame : Nat) (output : OutputId) (c : Conditions) :
    FrameOutcome → List TraceEvent → Prop
  | refused {e b rects area full t₁ t₂ t₃} : Story frame output c ⟨.error e, none⟩
    (opening frame output b rects area full t₁ t₂ t₃)
  | drawn {result painted b rects area full t₁ t₂ t₃ events} :
    Ending frame output c b result events → Story frame output c ⟨result, some painted⟩
      (opening frame output b rects area full t₁ t₂ t₃ ++
        .passBegin frame b.id b.width b.height :: events)

theorem Story.opens {frame : Nat} {output : OutputId} {o : FrameOutcome} {told : List TraceEvent}
    (story : Story frame output c o told) : ∃ b rects area full t₁ t₂ t₃ rest,
      told = opening frame output b rects area full t₁ t₂ t₃ ++ rest := by
  cases story with
  | refused => exact ⟨_, _, _, _, _, _, _, [], (List.append_nil _).symm⟩
  | drawn => exact ⟨_, _, _, _, _, _, _, _, rfl⟩

/-! ## The parts of a frame report it -/

theorem abandon_reports {r : FrameRecord} {b : Buffer} {message : String} {error : PassError}
    (h : d.abandon r b message error σ = .ok d' σ') : σ.Reports [.summary r.report] σ' := by
  obtain ⟨u, σ₁, noting, h₁⟩ := bind_ok h
  obtain ⟨u, σ₂, emitting, h₂⟩ := bind_ok h₁
  obtain ⟨u, σ₃, releasing, ending⟩ := bind_ok h₂
  obtain ⟨rfl, rfl⟩ := pure_ok ending
  exact (silent_note _ noting).trans <| (emit_ok rfl emitting).trans <|
    silent_modifyStore _ releasing

theorem silent_takeBuffer (d : FrameLoop) : Silent d.takeBuffer := by
  unfold takeBuffer
  split
  · exact fun _ _ _ h => by cases h
  · exact silent_get.bind fun _ => (silent_modifyStore _).bind fun _ => silent_pure _

theorem silent_startPass (d : FrameLoop) (c : Conditions) (b : Buffer) :
    Silent (d.startPass c b) := by
  unfold startPass
  split
  · exact silent_pure _
  · exact d.renderer.silent_start b

/-- What a frame takes the next buffer to lack is what it reports. -/
theorem beginFrame_reports {result : Except PassError OpenFrame}
    (h : d.beginFrame c σ = .ok (d', result) σ') :
    ∃ b area t₁ t₂ t₃,
      let damage := (d.ring.rotateFor σ.store.isAlive b.id).2
      let told := opening d.frames d.output b (min damage.rects.length (UInt32.size - 1)) area
        ((d.turned σ.store.isAlive b).isFull area) t₁ t₂ t₃
      let r := (FrameRecord.new d.frames d.output σ.clock.next).after told
      d.buffers[d.next]? = some b ∧ damage.area = .ok area ∧ d'.output = d.output ∧
        ((∃ e, result = .error e ∧ σ.Reports (told ++ [.summary r.report]) σ') ∨
          ∃ f, result = .ok f ∧ f.record = r ∧ f.buffer = b ∧
            σ.Reports (told ++ [.passBegin d.frames b.id b.width b.height]) σ') := by
  unfold beginFrame at h
  obtain ⟨t, σ₁, timing, h₁⟩ := bind_ok h
  obtain ⟨r₁, σ₂, entering, h₂⟩ := bind_ok h₁
  obtain ⟨⟨d₁, b, damage⟩, σ₃, taking, h₃⟩ := bind_ok h₂
  obtain ⟨area, σ₄, measuring, h₄⟩ := bind_ok h₃
  obtain ⟨u, σ₅, emitting, h₅⟩ := bind_ok h₄
  obtain ⟨r₂, σ₆, leaving, h₆⟩ := bind_ok h₅
  obtain ⟨r₃, σ₇, entering', h₇⟩ := bind_ok h₆
  obtain ⟨started, σ₈, starting, h₈⟩ := bind_ok h₇
  have before : σ₂.store = σ.store :=
    (FrameRecord.quiet_enter _ _ entering).trans (quiet_now timing)
  obtain ⟨rfl, reading⟩ := now_ok timing
  obtain ⟨t₁, reports₁, rfl⟩ := FrameRecord.enter_ok entering
  obtain ⟨t₂, reports₂, rfl⟩ := FrameRecord.leave_ok leaving
  obtain ⟨t₃, reports₃, rfl⟩ := FrameRecord.enter_ok entering'
  obtain ⟨found, rfl, rfl, -⟩ := takeBuffer_ok taking
  obtain ⟨measured, rfl⟩ := ofExcept_ok (unwinding_ok.1 measuring)
  rw [before] at measured emitting
  have opened := reading.trans <| reports₁.trans <| (silent_takeBuffer _ taking).trans <|
    (emit_ok rfl emitting).trans <| reports₂.trans <| reports₃.trans <|
    silent_startPass _ _ _ starting
  refine ⟨b, area, t₁, t₂, t₃, found, measured, ?_⟩
  cases started with
  | error error =>
    obtain ⟨d₂, σ₉, abandoning, ending⟩ := bind_ok h₈
    obtain ⟨same, rfl⟩ := pure_ok ending
    cases same
    refine ⟨?_, .inl ⟨error, rfl, opened.trans (abandon_reports abandoning)⟩⟩
    rw [(abandon_ok abandoning).1]
    rfl
  | ok p =>
    obtain ⟨u, σ₉, emitting', ending⟩ := bind_ok h₈
    obtain ⟨same, rfl⟩ := pure_ok ending
    cases same
    exact ⟨rfl, .inr ⟨_, rfl, rfl, rfl, opened.trans (emit_ok rfl emitting')⟩⟩

theorem silent_finishPass (c : Conditions) (p : Pass) : Silent (finishPass c p) := by
  unfold finishPass
  split
  · exact (silent_closeAccess _).bind fun _ => silent_pure _
  · exact p.silent_finish.bind fun _ => silent_pure _

theorem silent_commit (d : FrameLoop) (c : Conditions) (request : OutputRequest) :
    Silent (d.commit c request) := by
  unfold commit
  split
  · exact (silent_modifyStore _).bind fun _ => silent_pure _
  · exact silent_get.bind fun _ =>
      (HeadlessDisplay.Verdict.silent_settle _).bind fun _ => silent_pure _

theorem silent_heed (d : FrameLoop) (r : FrameRecord) (accepted : Bool) :
    Silent (d.heed r accepted) := by
  unfold heed
  dsimp only
  split <;> exact (silent_note _).bind fun _ => silent_pure _

theorem present_reports {r : FrameRecord} {b : Buffer} {damage : Region} {accepted : Bool}
    (h : d.present c r b damage σ = .ok (d', accepted) σ') :
    ∃ fields t₇ t₈ t₉,
      let told := [.phaseBegin r.frame .commit t₇,
        .commit r.frame d.output (some b.id) fields accepted t₈, .phaseEnd r.frame .commit t₉]
      σ.Reports (told ++ [.summary (r.after told).report]) σ' := by
  unfold present at h
  obtain ⟨r₁, σ₁, entering, h₁⟩ := bind_ok h
  obtain ⟨⟨d₁, answer⟩, σ₂, committing, h₂⟩ := bind_ok h₁
  obtain ⟨d₂, σ₃, heeding, h₃⟩ := bind_ok h₂
  obtain ⟨t, σ₄, timing, h₄⟩ := bind_ok h₃
  obtain ⟨u, σ₅, emitting, h₅⟩ := bind_ok h₄
  obtain ⟨r₂, σ₆, leaving, h₆⟩ := bind_ok h₅
  obtain ⟨u, σ₇, emitting', ending⟩ := bind_ok h₆
  obtain ⟨same, rfl⟩ := pure_ok ending
  cases same
  obtain ⟨t₇, reports₁, rfl⟩ := FrameRecord.enter_ok entering
  obtain ⟨t₉, reports₂, rfl⟩ := FrameRecord.leave_ok leaving
  have output : d'.output = d.output := by
    rw [(heed_ok heeding).1]
    obtain ⟨rfl, -⟩ | ⟨rfl, -⟩ := commit_steps committing <;> cases accepted <;> rfl
  rw [output] at emitting
  refine ⟨(OutputRequest.showing b damage).staged.mask, t₇, t, t₉, ?_⟩
  exact reports₁.trans <| (silent_commit _ _ _ committing).trans <|
    (silent_heed _ _ _ heeding).trans <| (now_emit_ok rfl timing emitting).trans <|
    reports₂.trans (emit_ok rfl emitting')

theorem report_reports {f : OpenFrame} {span : Option Duration} {u : Unit}
    (h : f.report span σ = .ok u σ') :
    σ.Reports (submitted f.record.frame f.buffer f.pass.stats span) σ' := by
  unfold OpenFrame.report at h
  obtain ⟨u, σ₁, emitting, rest⟩ := bind_ok h
  rw [submitted]
  by_cases skips : 0 < f.pass.stats.skipped
  · rw [if_pos skips] at rest ⊢
    exact (emit_ok rfl emitting).trans (emit_ok rfl rest)
  · rw [if_neg skips] at rest ⊢
    exact (emit_ok rfl emitting).trans (silent_pure _ rest)

theorem endFrame_reports {f : OpenFrame} {result : Except PassError Bool}
    (h : d.endFrame c f σ = .ok (d', result) σ') :
    ∃ told, Ending f.record.frame d.output c f.buffer result told ∧
      σ.Reports (told ++ [.summary (f.record.after told).report]) σ' := by
  unfold endFrame at h
  obtain ⟨r₁, σ₁, leaving, h₁⟩ := bind_ok h
  obtain ⟨r₂, σ₂, entering, h₂⟩ := bind_ok h₁
  obtain ⟨finished, σ₃, finishing, h₃⟩ := bind_ok h₂
  obtain ⟨t₄, reports₁, rfl⟩ := FrameRecord.leave_ok leaving
  obtain ⟨t₅, reports₂, rfl⟩ := FrameRecord.enter_ok entering
  have closed := reports₁.trans <| reports₂.trans <| silent_finishPass _ _ finishing
  unfold finishPass at finishing
  cases failing : c.finishError with
  | some error =>
    rw [failing] at finishing
    obtain ⟨u, σ₄, -, ending⟩ := bind_ok finishing
    obtain ⟨rfl, rfl⟩ := pure_ok ending
    obtain ⟨d₁, σ₅, abandoning, ending⟩ := bind_ok h₃
    obtain ⟨same, rfl⟩ := pure_ok ending
    cases same
    exact ⟨_, .dropped failing, closed.trans (abandon_reports abandoning)⟩
  | none =>
    rw [failing] at finishing
    obtain ⟨span, σ₄, -, ending⟩ := bind_ok finishing
    obtain ⟨rfl, rfl⟩ := pure_ok ending
    obtain ⟨u, σ₅, reporting, h₄⟩ := bind_ok h₃
    obtain ⟨r₃, σ₆, leaving', h₅⟩ := bind_ok h₄
    obtain ⟨⟨d₁, accepted⟩, σ₇, presenting, ending⟩ := bind_ok h₅
    obtain ⟨same, rfl⟩ := pure_ok ending
    cases same
    obtain ⟨t₆, reports₃, rfl⟩ := FrameRecord.leave_ok leaving'
    obtain ⟨fields, t₇, t₈, t₉, reports₄⟩ := present_reports presenting
    refine ⟨closing f.record.frame d.output f.buffer f.pass.stats span fields accepted
      t₄ t₅ t₆ t₇ t₈ t₉, .shown failing, ?_⟩
    rw [closing, FrameRecord.after_append, FrameRecord.after_append, after_submitted,
      List.append_assoc, List.append_assoc]
    exact closed.trans <| (report_reports reporting).trans <| reports₃.trans reports₄

/-! ## New sizes are silent -/

theorem silent_allocate (config : Swapchain) (width height : UInt32) (n : Nat) :
    Silent (allocate config width height n) := by
  induction n with
  | zero => exact silent_pure _
  | succ n ih => exact (silent_withStore _).bind fun _ => ih.bind fun _ => silent_pure _

theorem silent_resize (d : FrameLoop) (width height : UInt32) : Silent (d.resize width height) := by
  unfold resize
  split
  · exact silent_pure d
  · exact (silent_allocate _ _ _ _).bind fun _ => (silent_modifyStore _).bind fun _ =>
      (silent_notes _).bind fun _ => (silent_note _).bind fun _ => silent_pure _

/-! ## The whole frame -/

variable {α : Type} [Scalar α] {painter : Region → Painting} {o : FrameOutcome}

/-- A frame reports its story, which begins with what its buffer lacks, and last of all the summary
of that story. -/
theorem makeFrame_surveys (h : d.makeFrame α c painter σ = .ok (d', o) σ') :
    ∃ b area told,
      let damage := (d.ring.rotateFor σ.store.isAlive b.id).2
      d.buffers[d.next]? = some b ∧ damage.area = .ok area ∧
        (∃ t₁ t₂ rest, told = surveyed d.frames d.output b
          (min damage.rects.length (UInt32.size - 1)) area
          ((d.turned σ.store.isAlive b).isFull area) t₁ t₂ ++ rest) ∧
        Story d.frames d.output c o told ∧
        σ.Reports (told ++
          [.summary ((FrameRecord.new d.frames d.output σ.clock.next).after told).report]) σ' := by
  obtain ⟨d₁, opened, σ₁, beginning, ending⟩ := makeFrame_ok h
  obtain ⟨b, area, t₁, t₂, t₃, found, measured, output, begun⟩ := beginFrame_reports beginning
  refine ⟨b, area, ?_⟩
  dsimp only at output begun ⊢
  obtain ⟨error, rfl, rfl, rfl, rfl⟩ | ⟨f, p, stats, σ₂, result, rfl, drawing, closing, rfl⟩ :=
    ending
  · obtain ⟨-, -, reports⟩ | ⟨f, impossible, -⟩ := begun
    · exact ⟨_, found, measured, ⟨t₁, t₂, _, rfl⟩, .refused, reports⟩
    · cases impossible
  · obtain ⟨e, impossible, -⟩ | ⟨f', same, record, rfl, reports⟩ := begun
    · cases impossible
    · cases same
      obtain ⟨told, ends, reports'⟩ := endFrame_reports closing
      dsimp only at ends reports'
      rw [record, output] at ends
      rw [record] at reports'
      refine ⟨opening d.frames d.output f.buffer _ area _ t₁ t₂ t₃ ++
        .passBegin d.frames f.buffer.id f.buffer.width f.buffer.height :: told, found, measured,
        ⟨t₁, t₂, _, List.append_assoc ..⟩, .drawn ends, ?_⟩
      rw [FrameRecord.after_append, List.append_assoc]
      exact reports.trans ((Painting.silent_draw _ _ drawing).trans reports')

theorem makeFrame_reports (h : d.makeFrame α c painter σ = .ok (d', o) σ') :
    ∃ told, Story d.frames d.output c o told ∧
      σ.Reports (told ++
        [.summary ((FrameRecord.new d.frames d.output σ.clock.next).after told).report]) σ' := by
  obtain ⟨-, -, told, -, -, -, story, reports⟩ := makeFrame_surveys h
  exact ⟨told, story, reports⟩

end FrameLoop

/-! ## Frames in one session -/

/-- A frame that was made, and what it added to the trace. -/
structure Film where
  frame : Nat
  output : OutputId
  result : Except PassError Bool
  events : List TraceEvent

/-- A session in which any loops make frames, one after the other. Between two frames anything may
happen that reports nothing. -/
inductive Filmed (σ : Session) : List Film → Session → Prop
  | start : Filmed σ [] σ
  | frame {films σ₁ σ₂ α d c painter d' o events} [Scalar α] : Filmed σ films σ₁ →
    FrameLoop.makeFrame α d c painter σ₁ = .ok (d', o) σ₂ → σ₂.trace = σ₁.trace ++ events →
    Filmed σ (films ++ [⟨d.frames, d.output, o.result, events⟩]) σ₂
  | other {films σ₁ σ₂} : Filmed σ films σ₁ → σ₂.trace = σ₁.trace → Filmed σ films σ₂

/-- The film is the story of a frame and its summary. -/
def Film.Told (film : Film) : Prop :=
  ∃ c o told report, FrameLoop.Story film.frame film.output c o told ∧ o.result = film.result ∧
    film.events = told ++ [.summary report] ∧ report.frame = film.frame ∧
    report.output = film.output

namespace Filmed

variable {σ σ' : Session} {films : List Film}

theorem trace (filmed : Filmed σ films σ') : σ'.trace = σ.trace ++ films.flatMap (·.events) := by
  induction filmed with
  | start => simp
  | frame _ _ added ih => simp [added, ih]
  | other _ same ih => rw [same, ih]

/-- A frame that was made goes on with the session. -/
theorem add {σ₁ : Session} {α : Type} [Scalar α] {d d' : FrameLoop} {c : Conditions}
    {painter : Region → Painting} {o : FrameOutcome} (filmed : Filmed σ films σ₁)
    (made : d.makeFrame α c painter σ₁ = .ok (d', o) σ') :
    ∃ film : Film, film.frame = d.frames ∧ film.output = d.output ∧ film.result = o.result ∧
      Filmed σ (films ++ [film]) σ' := by
  obtain ⟨told, -, reports⟩ := FrameLoop.makeFrame_reports made
  exact ⟨_, rfl, rfl, rfl, filmed.frame made reports.trace⟩

theorem told (filmed : Filmed σ films σ') : ∀ film ∈ films, film.Told := by
  induction filmed with
  | start => simp
  | @frame films σ₁ σ₂ α d c painter d' o events _ _ made added ih =>
    obtain ⟨told, story, reports⟩ := FrameLoop.makeFrame_reports made
    have same := List.append_cancel_left (added.symm.trans reports.trace)
    rw [List.forall_mem_append, List.forall_mem_singleton]
    have fixed := (FrameRecord.new d.frames d.output σ₁.clock.next).fixed_after told
    exact ⟨ih, c, o, told, _, story, rfl, same, fixed.1, fixed.2.1⟩
  | other _ _ ih => exact ih

end Filmed

end Compositor
