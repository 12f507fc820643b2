import Compositor.Proofs.Trace.Tracks

/-!
# Phases that are left open

A frame that reaches the display, accepted or not, ends each of its phases before the next one
begins. A frame that fails gives up in the phase that failed: its summary comes while that phase is
open, and nothing ends it later. Main statement: the phases of a session are bracketed exactly if no
frame failed, and a timeline of it has one opening more for every frame that did.
-/

namespace Compositor

open Compositor.Action

/-- The event begins a phase, or sums up the frame. -/
def TraceEvent.Interrupts (frame : Nat) : TraceEvent → Prop
  | phaseBegin .. => True
  | summary s => s.frame = frame
  | damage .. | phaseEnd .. | passBegin .. | passSubmit .. | drawSkipped .. | commit .. => False

/-- The phase ends, and nothing interrupts it before. -/
def Ends (frame : Nat) (phase : Phase) (events : List TraceEvent) : Prop :=
  ∃ between u later, events = between ++ .phaseEnd frame phase u :: later ∧
    ∀ e ∈ between, ¬ e.Interrupts frame

/-- Every phase that begins ends before another one begins and before its frame is summed up. -/
def Bracketed (events : List TraceEvent) : Prop :=
  ∀ before frame phase t rest, events = before ++ .phaseBegin frame phase t :: rest →
    Ends frame phase rest

/-! ## Reading phases -/

/-- Read an event while a phase is open or none is, and say which one is open then. -/
def readPhase (opened : Option (Nat × Phase)) : TraceEvent → Option (Option (Nat × Phase))
  | .phaseBegin frame phase _ => if opened = none then some (some (frame, phase)) else none
  | .phaseEnd frame phase _ => if opened = some (frame, phase) then some none else none
  | .summary _ => if opened = none then some none else none
  | .damage .. | .passBegin .. | .passSubmit .. | .drawSkipped .. | .commit .. => some opened

/-- The events can be read, from one phase that is open or none to another. -/
def Reads (opened : Option (Nat × Phase)) (events : List TraceEvent)
    (opened' : Option (Nat × Phase)) : Prop :=
  events.foldlM readPhase opened = some opened'

namespace Reads

variable {opened opened₁ opened' : Option (Nat × Phase)} {e : TraceEvent}
  {events more : List TraceEvent}

theorem cons_iff : Reads opened (e :: events) opened' ↔
    ∃ opened₁, readPhase opened e = some opened₁ ∧ Reads opened₁ events opened' := by
  rw [Reads, List.foldlM_cons, Option.bind_eq_bind, Option.bind_eq_some_iff]
  rfl

theorem append (first : Reads opened events opened₁) (rest : Reads opened₁ more opened') :
    Reads opened (events ++ more) opened' := by
  rw [Reads, List.foldlM_append, first]
  exact rest

theorem flatMap {films : List Film} (each : ∀ film ∈ films, Reads none film.events none) :
    Reads none (films.flatMap (·.events)) none := by
  induction films with
  | nil => rfl
  | cons film films ih =>
    obtain ⟨first, others⟩ := List.forall_mem_cons.1 each
    exact first.append (ih others)

/-- A phase that is open while the events are read ends in them. -/
theorem ends {frame : Nat} {phase : Phase} (reads : Reads (some (frame, phase)) events none) :
    Ends frame phase events := by
  induction events with
  | nil => cases reads
  | cons e events ih =>
    obtain ⟨opened₁, step, rest⟩ := cons_iff.1 reads
    cases e with
    | phaseBegin | summary => cases step
    | phaseEnd frame' phase' t =>
      obtain ⟨same, -⟩ := Option.ite_none_right_eq_some.1 step
      cases same
      exact ⟨[], t, events, rfl, nofun⟩
    | damage | passBegin | passSubmit | drawSkipped | commit =>
      cases step
      obtain ⟨between, u, later, rfl, quiet⟩ := ih rest
      exact ⟨_ :: between, u, later, rfl, List.forall_mem_cons.2 ⟨id, quiet⟩⟩

theorem bracketed (reads : Reads opened events none) : Bracketed events := by
  induction events generalizing opened with
  | nil => simp [Bracketed]
  | cons e events ih =>
    obtain ⟨opened₁, step, rest⟩ := cons_iff.1 reads
    rintro (_ | ⟨e', before⟩) frame phase t rest' split
    · cases split
      obtain ⟨-, ⟨⟩⟩ := Option.ite_none_right_eq_some.1 step
      exact rest.ends
    · cases split
      exact ih rest before frame phase t rest' rfl

end Reads

/-! ## Counting spans -/

/-- How a timeline marks some events. -/
def marks (events : List TraceEvent) : List Mark :=
  events.map fun e => (Timeline.entryOf Instant.zero e).mark

theorem marks_eq (events : List TraceEvent) :
    (Timeline.ofEvents events).entries.map (·.mark) = marks events :=
  Timeline.empty.map_added events fun _ e => by cases e <;> rfl

theorem marks_append (events more : List TraceEvent) :
    marks (events ++ more) = marks events ++ marks more :=
  List.map_append

theorem count_readPhase {opened opened' : Option (Nat × Phase)} {e : TraceEvent}
    (step : readPhase opened e = some opened') :
    (marks [e]).count .opens + opened.toList.length =
      (marks [e]).count .closes + opened'.toList.length := by
  cases e with
  | phaseBegin | phaseEnd | summary =>
    obtain ⟨rfl, ⟨⟩⟩ := Option.ite_none_right_eq_some.1 step
    rfl
  | damage | passBegin | passSubmit | drawSkipped | commit =>
    cases step
    rfl

/-- What is open in the end was opened and not closed. -/
theorem Reads.count_marks {opened opened' : Option (Nat × Phase)} {events : List TraceEvent}
    (reads : Reads opened events opened') :
    (marks events).count .opens + opened.toList.length =
      (marks events).count .closes + opened'.toList.length := by
  induction events generalizing opened with
  | nil =>
    cases reads
    rfl
  | cons e events ih =>
    obtain ⟨opened₁, step, rest⟩ := cons_iff.1 reads
    have first := count_readPhase step
    have later := ih rest
    rw [← List.singleton_append, marks_append, List.count_append, List.count_append]
    omega

/-! ## The phases of a frame -/

namespace FrameLoop

variable {frame : Nat} {output : OutputId} {c : Conditions} {o : FrameOutcome}
  {told : List TraceEvent}

/-- The events end with a phase that begins, after others that were closed. -/
def LeavesOpen (frame : Nat) (told : List TraceEvent) : Prop :=
  ∃ before phase t, (phase = .render ∨ phase = .submit) ∧
    told = before ++ [.phaseBegin frame phase t] ∧ Reads none before none

/-- A frame that got to its end closed all its phases. One that failed left the last one open. -/
theorem Story.phases (story : Story frame output c o told) :
    match o.result with
    | .ok _ => Reads none told none
    | .error _ => LeavesOpen frame told := by
  cases story with
  | @refused e b rects area full t₁ t₂ t₃ =>
    refine ⟨surveyed frame output b rects area full t₁ t₂, .render, t₃, .inl rfl, rfl, ?_⟩
    simp [Reads, surveyed, readPhase]
  | @drawn result painted b rects area full t₁ t₂ t₃ events ends =>
    cases ends with
    | @dropped e t₄ t₅ =>
      refine ⟨opening frame output b rects area full t₁ t₂ t₃ ++
        [.passBegin frame b.id b.width b.height, .phaseEnd frame .render t₄], .submit, t₅, .inr rfl,
        rfl, ?_⟩
      simp [Reads, opening, surveyed, readPhase]
    | @shown accepted stats =>
      by_cases skips : 0 < stats.skipped <;>
        simp [Reads, opening, surveyed, closing, submitted, skips, readPhase]

end FrameLoop

namespace Film

variable {film : Film}

/-- The frame did not get as far as the display. -/
def failed (film : Film) : Bool := !film.result.isOk

theorem Told.reads (story : film.Told) (reached : film.failed = false) :
    Reads none film.events none := by
  obtain ⟨c, o, told, report, story, result, events, -⟩ := story
  have phases := story.phases
  rw [result] at phases
  cases done : film.result with
  | ok accepted =>
    rw [done] at phases
    rw [events]
    exact Reads.append phases rfl
  | error e => simp [failed, done, Except.isOk, Except.toBool] at reached

/-- A frame that failed is summed up while one of its phases is open. -/
theorem Told.leavesOpen (story : film.Told) (failed : film.failed) :
    ∃ before phase t report, (phase = .render ∨ phase = .submit) ∧ report.frame = film.frame ∧
      film.events = before ++ [.phaseBegin film.frame phase t, .summary report] ∧
      Reads none before none := by
  obtain ⟨c, o, told, report, story, result, events, frame, -⟩ := story
  have phases := story.phases
  rw [result] at phases
  cases done : film.result with
  | ok accepted => simp [Film.failed, done, Except.isOk, Except.toBool] at failed
  | error e =>
    rw [done] at phases
    obtain ⟨before, phase, t, which, rfl, reads⟩ := phases
    refine ⟨before, phase, t, report, which, frame, ?_, reads⟩
    rw [events, List.append_assoc]
    rfl

/-- A summary that comes while a phase of its frame is open breaks the brackets. -/
theorem Told.not_bracketed (story : film.Told) (failed : film.failed) {films : List Film}
    (mem : film ∈ films) : ¬ Bracketed (films.flatMap (·.events)) := by
  intro bracketed
  obtain ⟨before, phase, t, report, -, frame, events, -⟩ := story.leavesOpen failed
  obtain ⟨early, later, rfl⟩ := List.append_of_mem mem
  obtain ⟨between, u, rest, split, quiet⟩ :=
    bracketed (early.flatMap (·.events) ++ before) film.frame phase t
      (.summary report :: later.flatMap (·.events)) (by simp [events])
  cases between with
  | nil => cases split
  | cons e between =>
    obtain ⟨rfl, -⟩ := List.cons.inj split
    exact quiet _ (.head _) frame

theorem Told.count_marks (story : film.Told) :
    (marks film.events).count .opens =
      (marks film.events).count .closes + if film.failed then 1 else 0 := by
  split
  case isTrue failed =>
    obtain ⟨before, phase, t, report, -, -, events, reads⟩ := story.leavesOpen failed
    have counts := reads.count_marks
    rw [events, marks_append, List.count_append, List.count_append]
    exact congrArg (· + 1) counts
  case isFalse reached =>
    exact (story.reads (Bool.eq_false_iff.2 reached)).count_marks

end Film

theorem count_marks_films {films : List Film} (stories : ∀ film ∈ films, film.Told) :
    (marks (films.flatMap (·.events))).count .opens =
      (marks (films.flatMap (·.events))).count .closes + films.countP Film.failed := by
  induction films with
  | nil => rfl
  | cons film films ih =>
    obtain ⟨story, stories⟩ := List.forall_mem_cons.1 stories
    have first := story.count_marks
    have others := ih stories
    rw [List.flatMap_cons, marks_append, List.count_append, List.count_append, List.countP_cons]
    omega

/-- The phases of a session are bracketed exactly if no frame failed. A frame that failed is summed
up while its render phase or its submit phase is open, which nothing ends; so a timeline of the
session opens one span more than it closes for every frame that failed. -/
theorem Filmed.phases_are_bracketed_unless_frames_fail {σ σ' : Session} {films : List Film}
    (filmed : Filmed σ films σ') :
    let told := films.flatMap (·.events)
    let spans := (Timeline.ofEvents told).entries.map (·.mark)
    σ'.trace = σ.trace ++ told ∧
      (Bracketed told ↔ ∀ film ∈ films, film.failed = false) ∧
      (∀ film ∈ films, film.failed → ∃ before phase t report,
        (phase = .render ∨ phase = .submit) ∧ report.frame = film.frame ∧
        film.events = before ++ [.phaseBegin film.frame phase t, .summary report] ∧
        Bracketed before) ∧
      spans.count .opens = spans.count .closes + films.countP Film.failed := by
  intro told spans
  have stories := filmed.told
  refine ⟨filmed.trace, ⟨fun bracketed film mem => ?_, fun reached => ?_⟩,
    fun film mem failed => ?_, ?_⟩
  · exact Bool.eq_false_iff.2 fun failed => (stories film mem).not_bracketed failed mem bracketed
  · exact (Reads.flatMap fun film mem => (stories film mem).reads (reached film mem)).bracketed
  · obtain ⟨before, phase, t, report, which, frame, events, reads⟩ :=
      (stories film mem).leavesOpen failed
    exact ⟨before, phase, t, report, which, frame, events, reads.bracketed⟩
  · simp only [spans, marks_eq]
    exact count_marks_films stories

/-- A frame whose pass cannot be finished is followed by one that is shown: of the phases that were
begun, one is never ended. -/
theorem one_span_stays_open :
    ∃ (σ' : Session) (first second : Film), Filmed (.new default) [first, second] σ' ∧
      first.failed ∧ second.failed = false ∧
      let spans := (Timeline.ofEvents (first.events ++ second.events)).entries.map (·.mark)
      spans.count .opens = spans.count .closes + 1 := by
  have run : Returns (FrameLoop.new ⟨1⟩ 2 1 .double {} (.new ⟨1⟩ false)) (.new default)
      fun d σ => σ.trace = [] ∧
        Returns (d.makeFrame Rat { finishError := some .format } fun _ => ⟨[], none⟩) σ
          fun made σ₁ => made.2.result.isOk = false ∧
            Returns (made.1.makeFrame Rat {} fun _ => ⟨[], none⟩) σ₁ fun made' _ =>
              made'.2.result.isOk = true := by
    decide +kernel
  obtain ⟨d, σ, made, none, run₁⟩ := run.exists_ok
  obtain ⟨⟨d₁, o⟩, σ₁, frame, failed, run₂⟩ := run₁.exists_ok
  obtain ⟨⟨d₂, o'⟩, σ₂, frame', shown⟩ := run₂.exists_ok
  have started : Filmed (.new default) [] σ := Filmed.start.other none
  obtain ⟨first, -, -, result, filmed⟩ := started.add frame
  obtain ⟨second, -, -, result', filmed'⟩ := filmed.add frame'
  have fails : first.failed = true := by
    rw [Film.failed, result, failed]
    rfl
  have reaches : second.failed = false := by
    rw [Film.failed, result', shown]
    rfl
  obtain ⟨-, -, -, counts⟩ := filmed'.phases_are_bracketed_unless_frames_fail
  refine ⟨σ₂, first, second, filmed', fails, reaches, ?_⟩
  simpa [fails, reaches] using counts

/-- The destination of the first frame is held by a reader, so its pass is refused. The render phase
that has begun by then is not ended before the summary. -/
theorem held_destination_breaks_brackets :
    ∃ (d d' : FrameLoop) (b : Buffer) (r : Except AccessError Guard) (o : FrameOutcome)
      (σ σ₁ σ' : Session),
      FrameLoop.new ⟨1⟩ 2 1 .double {} (.new ⟨1⟩ false) (.new default) = .ok d σ ∧
      openAccess b .readOnly σ = .ok r σ₁ ∧
      d.makeFrame Rat {} (fun _ => ⟨[], none⟩) σ₁ = .ok (d', o) σ' ∧ ¬ Bracketed σ'.trace := by
  have run : Returns (FrameLoop.new ⟨1⟩ 2 1 .double {} (.new ⟨1⟩ false)) (.new default)
      fun d σ => d.buffers ≠ [] ∧ ∀ b ∈ d.buffers.take 1,
        Returns (openAccess b .readOnly) σ fun _ σ₁ => σ₁.trace = [] ∧
          Returns (d.makeFrame Rat {} fun _ => ⟨[], none⟩) σ₁ fun made _ =>
            made.2.result.isOk = false := by
    decide +kernel
  obtain ⟨d, σ, made, filled, held⟩ := run.exists_ok
  obtain ⟨b, others, split⟩ := List.exists_cons_of_ne_nil filled
  obtain ⟨r, σ₁, opened, none, run₁⟩ := (held b (by simp [split])).exists_ok
  obtain ⟨⟨d', o⟩, σ', frame, failed⟩ := run₁.exists_ok
  have started : Filmed (.new default) [] σ₁ := Filmed.start.other none
  obtain ⟨film, -, -, result, filmed⟩ := started.add frame
  have fails : film.failed = true := by
    rw [Film.failed, result, failed]
    rfl
  refine ⟨d, d', b, r, o, σ, σ₁, σ', made, opened, frame, ?_⟩
  rw [filmed.trace]
  exact (filmed.told film (.head _)).not_bracketed fails (.head _)

end Compositor
