import Compositor.Proofs.DamageRing.Areas
import Compositor.Proofs.Frame.Failure
import Compositor.Proofs.Frame.Locks
import Compositor.Proofs.Frame.Reports
import Compositor.Proofs.Geometry.Floor

/-!
# Every frame is summed up

A loop that is in order can always measure what its next buffer lacks, so a frame returns unless its
painter breaks off. It ends with one summary, which is what a record became that took in the events
before it. Main statement: the summary has the number of the frame and agrees with these events and
with how the frame went; and if the clock never goes backwards, then the phases together took no
longer than the frame.
-/

namespace Compositor

open Compositor.Action

/-! ## Sums of durations -/

theorem Duration.add_eq_ok {d e : Duration} (fits : d.nanos.toNat + e.nanos.toNat < Word.limit) :
    ∃ sum, d.add e = .ok sum ∧ sum.nanos.toNat = d.nanos.toNat + e.nanos.toNat := by
  refine ⟨_, by rw [add, Word.add, if_pos fits]; rfl, ?_⟩
  exact UInt64.toNat_ofNat_of_lt' fits

theorem Instant.sub_eq_ok {t u : Instant} (order : u ≤ t) :
    ∃ d, t.sub u = .ok d ∧ d.nanos.toNat = t.nanos.toNat - u.nanos.toNat := by
  refine ⟨_, by rw [sub, Word.sub, if_pos (le_iff.1 order)]; rfl, ?_⟩
  exact UInt64.toNat_ofNat_of_lt' (Nat.lt_of_le_of_lt (Nat.sub_le _ _) t.nanos.toNat_lt)

namespace FrameReport

/-- How long a phase took. -/
def span (s : FrameReport) : Phase → Duration
  | .damage => s.damage
  | .render => s.render
  | .submit => s.submit
  | .commit => s.commit

/-- How long the phases took together. Every sum has to fit. -/
def total (s : FrameReport) : Except Fault Duration := do
  let sum ← s.damage.add s.render
  let sum ← sum.add s.submit
  sum.add s.commit

/-- The nanoseconds of all phases. -/
def nanos (s : FrameReport) : Nat :=
  s.damage.nanos.toNat + s.render.nanos.toNat + s.submit.nanos.toNat + s.commit.nanos.toNat

theorem total_eq_ok {s : FrameReport} (fits : s.nanos < Word.limit) :
    ∃ total, s.total = .ok total ∧ total.nanos.toNat = s.nanos := by
  unfold nanos at fits ⊢
  obtain ⟨first, sum₁, number₁⟩ := Duration.add_eq_ok (d := s.damage) (e := s.render) (by omega)
  obtain ⟨second, sum₂, number₂⟩ := Duration.add_eq_ok (d := first) (e := s.submit) (by omega)
  obtain ⟨third, sum₃, number₃⟩ := Duration.add_eq_ok (d := second) (e := s.commit) (by omega)
  refine ⟨third, ?_, by omega⟩
  rw [total, sum₁]
  change (first.add s.submit >>= fun sum => sum.add s.commit) = .ok third
  rw [sum₂]
  exact sum₃

end FrameReport

/-! ## What events tell -/

namespace TraceEvent

/-- The area that an event tells. -/
def area? : TraceEvent → Option Nat
  | damage _ _ _ _ area _ => some area
  | phaseBegin .. | phaseEnd .. | passBegin .. | passSubmit .. | drawSkipped .. | commit ..
  | summary _ => none

/-- The answer of the display that an event tells. -/
def accepted? : TraceEvent → Option Bool
  | commit _ _ _ _ accepted _ => some accepted
  | damage .. | phaseBegin .. | phaseEnd .. | passBegin .. | passSubmit .. | drawSkipped ..
  | summary _ => none

/-- When a phase begins, if it begins with this event. -/
def begins? (phase : Phase) : TraceEvent → Option Instant
  | phaseBegin _ p t => if p = phase then some t else none
  | damage .. | phaseEnd .. | passBegin .. | passSubmit .. | drawSkipped .. | commit ..
  | summary _ => none

/-- When a phase ends, if it ends with this event. -/
def ends? (phase : Phase) : TraceEvent → Option Instant
  | phaseEnd _ p t => if p = phase then some t else none
  | damage .. | phaseBegin .. | passBegin .. | passSubmit .. | drawSkipped .. | commit ..
  | summary _ => none

@[simp] theorem begins?_eq_some {phase : Phase} {e : TraceEvent} {t : Instant} :
    e.begins? phase = some t ↔ ∃ k, e = phaseBegin k phase t := by
  cases e <;> simp [begins?, and_comm]

@[simp] theorem ends?_eq_some {phase : Phase} {e : TraceEvent} {t : Instant} :
    e.ends? phase = some t ↔ ∃ k, e = phaseEnd k phase t := by
  cases e <;> simp [ends?, and_comm]

end TraceEvent

namespace FrameRecord

variable (r : FrameRecord) (events : List TraceEvent) (phase : Phase)

theorem span_report : r.report.span phase = r.span phase := by
  cases phase <;> rfl

/-- What each event may set is what the last one set that does. -/
theorem last_after {β : Type} (g : FrameRecord → β) {f : TraceEvent → Option β}
    (take : ∀ r e, g (r.take e) = (f e).getD (g r)) :
    g (r.after events) = (events.filterMap f).getLast?.getD (g r) := by
  induction events generalizing r with
  | nil => rfl
  | cons e events ih =>
    rw [after, List.foldl_cons, ← after, ih, take]
    cases told : f e with
    | none => simp [told]
    | some b => simp [told, List.getLast?_cons]

theorem last_after_option {β : Type} (g : FrameRecord → Option β) {f : TraceEvent → Option β}
    (take : ∀ r e, g (r.take e) = (f e).or (g r)) :
    g (r.after events) = (events.filterMap f).getLast?.or (g r) := by
  have last := r.last_after events g (f := fun e => (f e).map some) fun r e => by
    rw [take]
    cases f e <;> rfl
  rw [last, ← List.map_filterMap, List.getLast?_map]
  cases (events.filterMap f).getLast? <;> rfl

theorem area_after :
    (r.after events).area = (events.filterMap TraceEvent.area?).getLast?.getD r.area :=
  r.last_after events area fun _ e => by cases e <;> rfl

theorem committed_after : (r.after events).committed =
    (events.filterMap TraceEvent.accepted?).getLast?.getD r.committed :=
  r.last_after events committed fun _ e => by cases e <;> rfl

theorem begun_after : (r.after events).begun phase =
    (events.filterMap (TraceEvent.begins? phase)).getLast?.or (r.begun phase) := by
  refine r.last_after_option events (·.begun phase) fun r e => ?_
  cases e with
  | phaseBegin _ p =>
    by_cases same : phase = p <;> simp [take, beginPhase, TraceEvent.begins?, same, Ne.symm]
  | _ => rfl

theorem ended_after : (r.after events).ended phase =
    (events.filterMap (TraceEvent.ends? phase)).getLast?.or (r.ended phase) := by
  refine r.last_after_option events (·.ended phase) fun r e => ?_
  cases e with
  | phaseEnd _ p =>
    by_cases same : phase = p <;> simp [take, endPhase, TraceEvent.ends?, same, Ne.symm]
  | _ => rfl

end FrameRecord

/-! ## What a summary tells of its frame -/

/-- A summary agrees with the events before it, and with how its frame went. There is one report of
damage, and one of a commit if the display was asked. A phase took as long as the events tell, and
no time if it did not end. -/
structure FrameReport.Agrees (s : FrameReport) (told : List TraceEvent) (o : FrameOutcome) :
    Prop where
  single : ∀ s', .summary s' ∉ told
  area : told.filterMap TraceEvent.area? = [s.area]
  accepted : told.filterMap TraceEvent.accepted? = o.result.toOption.toList
  committed : s.committed = true ↔ o.result = .ok true
  unfinished : ∀ phase, (∀ k t, .phaseEnd k phase t ∉ told) → s.span phase = Duration.zero
  finished : ∀ phase k k' t u, .phaseBegin k phase t ∈ told → .phaseEnd k' phase u ∈ told →
    s.span phase = u.since t

namespace FrameLoop

variable {frame : Nat} {output : OutputId} {c : Conditions} {o : FrameOutcome}
  {start high : Instant} {told : List TraceEvent}

/-- Who does not look at passes sees only phases and the commit after the drawing. -/
theorem filterMap_closing {β : Type} {f : TraceEvent → Option β}
    (submits : ∀ k b ops skipped took, f (.passSubmit k b ops skipped took) = none)
    (skips : ∀ k b count, f (.drawSkipped k b count) = none) (b : Buffer) (stats : PassTally)
    (took : Option Duration) (fields : FieldMask) (accepted : Bool)
    (t₄ t₅ t₆ t₇ t₈ t₉ : Instant) :
    (closing frame output b stats took fields accepted t₄ t₅ t₆ t₇ t₈ t₉).filterMap f =
      [.phaseEnd frame .render t₄, .phaseBegin frame .submit t₅, .phaseEnd frame .submit t₆,
        .phaseBegin frame .commit t₇, .commit frame output (some b.id) fields accepted t₈,
        .phaseEnd frame .commit t₉].filterMap f := by
  have quiet : (submitted frame b stats took).filterMap f = [] := by
    unfold submitted
    split <;> simp [submits, skips]
  rw [closing, List.filterMap_append, List.filterMap_append, quiet, List.nil_append,
    ← List.filterMap_append]
  rfl

theorem after_closing (r : FrameRecord) (b : Buffer) (stats : PassTally)
    (took : Option Duration) (fields : FieldMask) (accepted : Bool)
    (t₄ t₅ t₆ t₇ t₈ t₉ : Instant) :
    r.after (closing frame output b stats took fields accepted t₄ t₅ t₆ t₇ t₈ t₉) =
      r.after [.phaseEnd frame .render t₄, .phaseBegin frame .submit t₅,
        .phaseEnd frame .submit t₆, .phaseBegin frame .commit t₇,
        .commit frame output (some b.id) fields accepted t₈, .phaseEnd frame .commit t₉] := by
  rw [closing, FrameRecord.after_append, FrameRecord.after_append, after_submitted]
  rfl

theorem Story.single (story : Story frame output c o told) (s : FrameReport) :
    .summary s ∉ told := by
  cases story with
  | refused => simp [opening, surveyed]
  | drawn ends =>
    cases ends with
    | dropped => simp [opening, surveyed]
    | @shown accepted stats =>
      by_cases skips : 0 < stats.skipped <;>
        simp [opening, surveyed, closing, submitted, skips]

theorem Story.area (story : Story frame output c o told) :
    ∃ area, told.filterMap TraceEvent.area? = [area] := by
  cases story with
  | refused => exact ⟨_, rfl⟩
  | @drawn _ _ _ _ area _ _ _ _ _ ends =>
    refine ⟨area, ?_⟩
    rw [List.filterMap_append]
    cases ends with
    | dropped => rfl
    | shown =>
      rw [List.filterMap_cons_none rfl, filterMap_closing (fun _ _ _ _ _ => rfl) fun _ _ _ => rfl]
      rfl

theorem Story.accepted (story : Story frame output c o told) :
    told.filterMap TraceEvent.accepted? = o.result.toOption.toList := by
  cases story with
  | refused => rfl
  | drawn ends =>
    rw [List.filterMap_append]
    cases ends with
    | dropped => rfl
    | shown =>
      rw [List.filterMap_cons_none rfl, filterMap_closing (fun _ _ _ _ _ => rfl) fun _ _ _ => rfl]
      rfl

/-- Every phase begins and ends at most once. -/
theorem Story.once (story : Story frame output c o told) (phase : Phase) :
    (told.filterMap (TraceEvent.begins? phase)).length ≤ 1 ∧
      (told.filterMap (TraceEvent.ends? phase)).length ≤ 1 := by
  cases story with
  | refused =>
    cases phase <;>
      simp [opening, surveyed, List.filterMap_cons, TraceEvent.begins?, TraceEvent.ends?]
  | drawn ends =>
    cases ends with
    | dropped =>
      cases phase <;>
        simp [opening, surveyed, List.filterMap_cons, TraceEvent.begins?, TraceEvent.ends?]
    | shown =>
      refine ⟨?_, ?_⟩
      all_goals
        rw [List.filterMap_append, List.filterMap_cons_none rfl,
          filterMap_closing (fun _ _ _ _ _ => rfl) fun _ _ _ => rfl]
        cases phase <;>
          simp [opening, surveyed, List.filterMap_cons, TraceEvent.begins?, TraceEvent.ends?]

theorem Story.agrees (story : Story frame output c o told) (start : Instant) :
    ((FrameRecord.new frame output start).after told).report.Agrees told o where
  single := story.single
  area := by
    obtain ⟨area, told⟩ := story.area
    change _ = [((FrameRecord.new frame output start).after _).area]
    rw [FrameRecord.area_after, told]
    rfl
  accepted := story.accepted
  committed := by
    change ((FrameRecord.new frame output start).after _).committed = true ↔ _
    rw [FrameRecord.committed_after, story.accepted]
    cases o.result <;> simp [Except.toOption, FrameRecord.new]
  unfinished phase missing := by
    have none : told.filterMap (TraceEvent.ends? phase) = [] := by
      refine List.eq_nil_iff_forall_not_mem.2 fun t mem => ?_
      obtain ⟨e, listed, ends⟩ := List.mem_filterMap.1 mem
      obtain ⟨k, rfl⟩ := TraceEvent.ends?_eq_some.1 ends
      exact missing k t listed
    rw [FrameRecord.span_report, FrameRecord.span, FrameRecord.ended_after, none]
    split
    next ended => cases ended
    next => rfl
  finished phase k k' t u begins ends := by
    obtain ⟨once, once'⟩ := story.once phase
    have only {l : List Instant} {t : Instant} (short : l.length ≤ 1) (mem : t ∈ l) :
        l = [t] := by
      cases l with
      | nil => cases mem
      | cons x rest =>
        obtain rfl : rest = [] := by simpa using short
        rw [List.mem_singleton.1 mem]
    have begun := only once
      (List.mem_filterMap.2 ⟨_, begins, TraceEvent.begins?_eq_some.2 ⟨k, rfl⟩⟩)
    have ended := only once'
      (List.mem_filterMap.2 ⟨_, ends, TraceEvent.ends?_eq_some.2 ⟨k', rfl⟩⟩)
    rw [FrameRecord.span_report, FrameRecord.span, FrameRecord.begun_after,
      FrameRecord.ended_after, begun, ended]
    rfl

/-! ## The times of a frame -/

/-- Phases follow each other, so together they take no longer than the whole. -/
theorem Story.timing (story : Story frame output c o told)
    (rising : Instant.Rising start (TraceEvent.times told) high) :
    ∃ last, (TraceEvent.times told).getLast? = some last ∧ start ≤ last ∧
      ((FrameRecord.new frame output start).after told).report.nanos ≤
        last.nanos.toNat - start.nanos.toNat := by
  cases story with
  | @refused e b rects area full t₁ t₂ t₃ =>
    obtain ⟨h₁, h₂, h₃, -⟩ := rising
    have nanos : ((FrameRecord.new frame output start).after
        (opening frame output b rects area full t₁ t₂ t₃)).report.nanos =
          (t₂.since t₁).nanos.toNat := rfl
    refine ⟨t₃, rfl, by grind, ?_⟩
    simp only [nanos, Instant.toNat_since]
    grind
  | @drawn result painted b rects area full t₁ t₂ t₃ events ends =>
    cases ends with
    | @dropped e t₄ t₅ =>
      obtain ⟨h₁, h₂, h₃, h₄, h₅, -⟩ := rising
      have nanos : ((FrameRecord.new frame output start).after
          (opening frame output b rects area full t₁ t₂ t₃ ++
            [.passBegin frame b.id b.width b.height, .phaseEnd frame .render t₄,
              .phaseBegin frame .submit t₅])).report.nanos =
            (t₂.since t₁).nanos.toNat + (t₄.since t₃).nanos.toNat := rfl
      refine ⟨t₅, rfl, by grind, ?_⟩
      simp only [nanos, Instant.toNat_since]
      grind
    | @shown accepted stats span fields t₄ t₅ t₆ t₇ t₈ t₉ =>
      have times : TraceEvent.times (opening frame output b rects area full t₁ t₂ t₃ ++
          .passBegin frame b.id b.width b.height ::
            closing frame output b stats span fields accepted t₄ t₅ t₆ t₇ t₈ t₉) =
          [t₁, t₂, t₃, t₄, t₅, t₆, t₇, t₈, t₉] := by
        rw [TraceEvent.times, List.filterMap_append, List.filterMap_cons_none rfl,
          filterMap_closing (fun _ _ _ _ _ => rfl) fun _ _ _ => rfl]
        rfl
      have nanos : ((FrameRecord.new frame output start).after
          (opening frame output b rects area full t₁ t₂ t₃ ++
            .passBegin frame b.id b.width b.height ::
              closing frame output b stats span fields accepted t₄ t₅ t₆ t₇ t₈ t₉)).report.nanos =
            (t₂.since t₁).nanos.toNat + (t₄.since t₃).nanos.toNat +
              (t₆.since t₅).nanos.toNat + (t₉.since t₇).nanos.toNat := by
        rw [FrameRecord.after_append, ← List.singleton_append, FrameRecord.after_append,
          after_closing]
        rfl
      rw [times] at rising ⊢
      obtain ⟨h₁, h₂, h₃, h₄, h₅, h₆, h₇, h₈, h₉, -⟩ := rising
      refine ⟨t₉, rfl, by grind, ?_⟩
      simp only [nanos, Instant.toNat_since]
      grind

/-! ## Loops that run -/

variable {d d' : FrameLoop} {σ σ' : Session} {used : List BufferId} {k : Holding} {α : Type}
  [Scalar α] {painter : Region → Painting}

theorem resize_ring {width height : UInt32} (h : d.resize width height σ = .ok d' σ') :
    d'.frames = d.frames ∧ (d.ring.Measured → d'.ring.Measured) := by
  unfold resize at h
  split at h
  · obtain ⟨rfl, rfl⟩ := pure_ok h
    exact ⟨rfl, id⟩
  · obtain ⟨buffers, σ₁, -, h₁⟩ := bind_ok h
    obtain ⟨u, σ₂, -, h₂⟩ := bind_ok h₁
    obtain ⟨u, σ₃, -, h₃⟩ := bind_ok h₂
    obtain ⟨u, σ₄, -, ending⟩ := bind_ok h₃
    obtain ⟨rfl, rfl⟩ := pure_ok ending
    exact ⟨rfl, fun measured => measured.resize _ _⟩

/-- The pass of the frame begins, and the painter breaks off in it. -/
def BreaksOff (d : FrameLoop) (α : Type) [Scalar α] (c : Conditions) (painter : Region → Painting)
    (σ : Session) : Prop :=
  ∃ d₁ f σ₁ fault σ₂, d.beginFrame c σ = .ok (d₁, .ok f) σ₁ ∧
    (painter f.damage).draw α f.pass σ₁ = .error fault σ₂

/-- A painter that only draws does not break off. -/
theorem Equipped.not_breaksOff [LawfulScalar α] (equipped : d.Equipped σ.store)
    (draws : OnlyDraws painter σ.store) : ¬ d.BreaksOff α c painter σ := by
  rintro ⟨d₁, f, σ₁, fault, σ₂, begun, broken⟩
  obtain ⟨b, found, ⟨f', same, -, rfl, -, granted⟩ | ⟨e, impossible, -⟩⟩ := beginFrame_result begun
  · cases same
    obtain ⟨p, stats, σ₃, bytes, drawn, -⟩ :=
      equipped.strokes (α := α) (List.mem_of_getElem? found) granted draws.knows
    cases broken.symm.trans (Painting.draw_ok.2 ⟨drawn, (draws f.damage).1⟩)
  · cases impossible

/-- A loop that counted its frames so far, and can measure all damage. -/
structure Counts (d : FrameLoop) (s : Store) (frames : Nat) : Prop where
  confined : d.Confined s
  measured : d.ring.Measured
  frames : d.frames = frames

namespace Counts

variable {n : Nat}

theorem new {output : OutputId} {width height : UInt32} {swapchain : Swapchain}
    {renderer : Renderer} {display : HeadlessDisplay} (sized : Sized width height)
    (balanced : σ.store.Balanced (display.config.holding ++ k))
    (made : FrameLoop.new output width height swapchain renderer display σ = .ok d σ') :
    d.Counts σ'.store 0 := by
  obtain ⟨frames, measured⟩ := resize_ring made
  exact ⟨.new sized balanced made, measured DamageRing.measured_unbounded, frames⟩

theorem makeFrame (counts : d.Counts σ.store n)
    (made : d.makeFrame α c painter σ = .ok (d', o) σ') : d'.Counts σ'.store (n + 1) := by
  obtain ⟨k, balanced⟩ := counts.confined.intact.owned
  obtain ⟨b, -, display, closes⟩ := makeFrame_closes made balanced
  have turned := (counts.measured.rotateFor σ.store.isAlive b.id).1
  refine ⟨counts.confined.makeFrame made, ?_, ?_⟩
  · obtain ⟨-, rfl⟩ | ⟨-, rfl⟩ := closes
    · exact turned
    · exact turned.addEverything
  · rw [← counts.frames]
    obtain ⟨-, rfl⟩ | ⟨-, rfl⟩ := closes <;> rfl

theorem step (counts : d.Counts σ.store n) (step : Step d σ used d' σ') :
    d'.Counts σ'.store (n + used.length) := by
  have confined := counts.confined.step step
  have bounds := counts.confined.intact.bounds_ring
  cases step with
  | damage region => exact ⟨confined, counts.measured.add bounds region, counts.frames⟩
  | damageRect rect => exact ⟨confined, counts.measured.addRect bounds rect, counts.frames⟩
  | resize _ resized =>
    obtain ⟨frames, measured⟩ := resize_ring resized
    exact ⟨confined, measured counts.measured, frames.trans counts.frames⟩
  | frame _ made => exact counts.makeFrame made
  | other => exact ⟨confined, counts.measured, counts.frames⟩

theorem run (counts : d.Counts σ.store n) (run : Run d σ used d' σ') :
    d'.Counts σ'.store (n + used.length) := by
  induction run with
  | start => exact counts
  | next _ step ih =>
    rw [List.length_append, ← Nat.add_assoc]
    exact ih.step step

/-- What the next buffer lacks can be measured, so a frame begins. -/
theorem exists_begun (counts : d.Counts σ.store n) (c : Conditions) :
    ∃ begun σ', d.beginFrame c σ = .ok begun σ' := by
  cases begins : d.beginFrame c σ with
  | ok begun σ' => exact ⟨begun, σ', rfl⟩
  | error fault σ' =>
    obtain ⟨b, found⟩ : ∃ b, d.buffers[d.next]? = some b :=
      ⟨_, List.getElem?_eq_getElem counts.confined.next⟩
    have broken := (beginFrame_error begins).1 b found
    have lacks := (counts.measured.rotateFor σ.store.isAlive b.id).2
    cases (lacks.normal.area_eq lacks.exact).symm.trans broken

/-- A frame is made, unless its painter breaks off. -/
theorem exists_made (counts : d.Counts σ.store n) :
    d.BreaksOff α c painter σ ∨ ∃ d' o σ', d.makeFrame α c painter σ = .ok (d', o) σ' := by
  obtain ⟨⟨d₁, opened⟩, σ₁, begun⟩ := counts.exists_begun c
  cases opened with
  | error e => exact .inr ⟨_, _, _, bind_eq_ok begun rfl⟩
  | ok f =>
    cases drawn : (painter f.damage).draw α f.pass σ₁ with
    | error fault σ₂ => exact .inl ⟨d₁, f, σ₁, fault, σ₂, begun, drawn⟩
    | ok p σ₂ =>
      obtain ⟨d', result, σ', made⟩ := makeFrame_of_drawn begun drawn
      exact .inr ⟨d', _, σ', made⟩

end Counts

/-- The display was asked exactly if a pass was drawn and could be finished. -/
theorem Story.reached (story : Story frame output c o told) :
    (∃ accepted, o.result = .ok accepted) ↔ o.painted.isSome ∧ c.finishError = none := by
  cases story with
  | refused => simp
  | drawn ends =>
    cases ends with
    | dropped failing => simp [failing]
    | shown failing => simp [failing]

theorem painted_iff_begun (made : d.makeFrame α c painter σ = .ok (d', o) σ') :
    o.painted.isSome ↔ ∃ d₁ f σ₁, d.beginFrame c σ = .ok (d₁, .ok f) σ₁ := by
  obtain ⟨d₁, opened, σ₁, begun, ⟨e, rfl, rfl, -⟩ | ⟨f, p, stats, σ₂, result, rfl, -, -, rfl⟩⟩ :=
    makeFrame_ok made
  · simp [begun]
  · simp [begun]

/-- After any run, a frame returns unless its painter breaks off, which no painter does that only
draws. A frame that returns reports its summary last, and no other one: with the number of the
frame, and in agreement with the events before it and with how the frame went. A commit is reported
exactly if the pass was begun and could be finished. If the clock never goes backwards, then the
phases took no longer together than from the start to the last reading that is reported, and neither
time overflows. -/
theorem every_frame_is_summed_up [LawfulScalar α] {display : HeadlessDisplay}
    {swapchain : Swapchain} {renderer : Renderer} {width height : UInt32} {σ₀ σ₁ : Session}
    {d₁ : FrameLoop} (sized : Sized width height)
    (balanced : σ₀.store.Balanced (display.config.holding ++ k))
    (made : FrameLoop.new output width height swapchain renderer display σ₀ = .ok d₁ σ₁)
    (before : Run d₁ σ₁ used d σ) :
    (d.Equipped σ.store → OnlyDraws painter σ.store → ¬ d.BreaksOff α c painter σ) ∧
    (d.BreaksOff α c painter σ ∨
      ∃ d' o σ' told s, d.makeFrame α c painter σ = .ok (d', o) σ' ∧
        σ'.trace = σ.trace ++ (told ++ [.summary s]) ∧
        s.frame = used.length ∧ s.output = d.output ∧ s.start = σ.clock.next ∧ s.Agrees told o ∧
        ((∃ accepted, o.result = .ok accepted) ↔
          (∃ d₁ f σ₁, d.beginFrame c σ = .ok (d₁, .ok f) σ₁) ∧ c.finishError = none) ∧
        (σ.clock.Forward → ∃ last total whole, (TraceEvent.times told).getLast? = some last ∧
          s.total = .ok total ∧ last.sub s.start = .ok whole ∧ total.nanos ≤ whole.nanos)) := by
  have counts := (Counts.new sized balanced made).run before
  refine ⟨fun equipped draws => equipped.not_breaksOff draws, ?_⟩
  refine counts.exists_made.imp_right fun ⟨d', o, σ', returned⟩ => ?_
  obtain ⟨told, story, reports⟩ := makeFrame_reports returned
  obtain ⟨number, name, start⟩ :=
    (FrameRecord.new d.frames d.output σ.clock.next).fixed_after told
  refine ⟨d', o, σ', told, _, returned, reports.trace, ?_, name, start,
    story.agrees σ.clock.next, ?_, fun forward => ?_⟩
  · rw [← Nat.zero_add used.length, ← counts.frames]
    exact number
  · rw [story.reached, painted_iff_begun returned]
  · have rising := (reports.clock forward).2
    -- A summary has no time of its own.
    rw [TraceEvent.times, List.filterMap_append] at rising
    change Instant.Rising _ (TraceEvent.times told ++ []) _ at rising
    rw [List.append_nil] at rising
    obtain ⟨last, isLast, order, bound⟩ := story.timing rising
    obtain ⟨whole, lasted, length⟩ := Instant.sub_eq_ok order
    obtain ⟨total, sum, nanos⟩ := FrameReport.total_eq_ok
      (Nat.lt_of_le_of_lt (bound.trans (Nat.sub_le _ _)) last.nanos.toNat_lt)
    refine ⟨last, total, whole, isLast, sum, (congrArg last.sub start).trans lasted, ?_⟩
    rw [UInt64.le_iff_toNat_le, nanos, length]
    exact bound

/-- The first frame is refused, the second one is shown. Its summary has the number one, and says
that it was committed; the clock goes on with every reading, and the time of the phases fits. -/
theorem second_frame_is_summed_up :
    ∃ (d d₁ d₂ : FrameLoop) (σ σ₁ σ₂ : Session) (o₁ o₂ : FrameOutcome) (told : List TraceEvent)
      (s : FrameReport),
      FrameLoop.new ⟨1⟩ 2 1 .double {} (.new ⟨1⟩ false) (.new (.steps Instant.zero ⟨1⟩)) =
        .ok d σ ∧
      d.makeFrame Float { startError := some .format } paintNothing σ = .ok (d₁, o₁) σ₁ ∧
      d₁.makeFrame Float {} paintNothing σ₁ = .ok (d₂, o₂) σ₂ ∧
      σ₂.trace = σ₁.trace ++ (told ++ [.summary s]) ∧ s.frame = 1 ∧ s.committed = true ∧
      ∃ last total whole, (TraceEvent.times told).getLast? = some last ∧
        s.total = .ok total ∧ last.sub s.start = .ok whole ∧ total.nanos ≤ whole.nanos := by
  have run : Returns (FrameLoop.new ⟨1⟩ 2 1 .double {} (.new ⟨1⟩ false))
      (.new (.steps Instant.zero ⟨1⟩)) fun d σ =>
        (d.buffers[d.next]?).isSome ∧
        Returns (d.makeFrame Float { startError := some .format } paintNothing) σ fun made σ₁ =>
          Returns (made.1.makeFrame Float {} paintNothing) σ₁ fun made' _ =>
            made'.2.result.toOption = some true := by
    decide +kernel
  obtain ⟨d, σ, made, first, run₁⟩ := run.exists_ok
  obtain ⟨⟨d₁, o₁⟩, σ₁, frame₁, run₂⟩ := run₁.exists_ok
  obtain ⟨⟨d₂, o₂⟩, σ₂, frame₂, shown⟩ := run₂.exists_ok
  obtain ⟨b, found⟩ := Option.isSome_iff_exists.1 first
  have sized : Sized 2 1 := ⟨by decide, by decide, by decide, by decide⟩
  have onlyDraws (s : Store) : OnlyDraws paintNothing s := fun _ => ⟨rfl, nofun⟩
  have lives : Lives d₁ σ₁ := .frame
    (.new (k := ⟨[], []⟩) Store.whole_empty Store.balanced_empty made) (onlyDraws _) frame₁
  have before : Run d σ ([] ++ [b.id]) d₁ σ₁ := .next .start (.frame found frame₁)
  have unbroken : ¬ d₁.BreaksOff Float {} paintNothing σ₁ :=
    (every_frame_is_summed_up (k := ⟨[], []⟩) sized Store.balanced_empty made before).1
      lives.equipped (onlyDraws _)
  obtain ⟨d', o, σ', told, s, again, trace, frame, -, -, agrees, -, timed⟩ :=
    (every_frame_is_summed_up (k := ⟨[], []⟩) (α := Float) sized Store.balanced_empty made
      before).2.resolve_left unbroken
  cases frame₂.symm.trans again
  have committed : s.committed = true := by
    refine agrees.committed.2 ?_
    cases result : o₂.result <;> simp_all [Except.toOption]
  have forward₀ : σ.clock.Forward :=
    (silent_resize _ _ _ made).clock (Clock.forward_steps _ _) |>.1
  obtain ⟨told₁, -, reports⟩ := makeFrame_reports frame₁
  exact ⟨d, d₁, d₂, σ, σ₁, σ₂, o₁, o₂, told, s, made, frame₁, frame₂, trace, frame, committed,
    timed (reports.clock forward₀).1⟩

end FrameLoop

end Compositor
