import Compositor.Proofs.Frame.Reports
import Compositor.Trace.Timeline

/-!
# Tracks of a timeline

Every event adds one entry to a timeline, and all of the entry but its time is read off the event.
Events name the output of their frame, except those that begin or end a phase; so the spans of all
phases lie on track zero, while damage, commits and summaries lie on the track of their output.
Main statement: for any frames in one session, the two agree exactly for the output zero.
-/

namespace Compositor

open Compositor.Action

namespace Timeline

/-- The timeline after some more events. -/
def after (t : Timeline) (events : List TraceEvent) : Timeline := events.foldl record t

/-- The entries that some events add. -/
def added (t : Timeline) (events : List TraceEvent) : List TimelineEntry :=
  (t.after events).entries.drop t.entries.length

variable (t : Timeline) (events : List TraceEvent)

theorem ofEvents_append (more : List TraceEvent) :
    ofEvents (events ++ more) = (ofEvents events).after more :=
  List.foldl_append

theorem prefix_after : t.entries <+: (t.after events).entries := by
  induction events generalizing t with
  | nil => exact List.prefix_rfl
  | cons e events ih => exact (List.prefix_append _ _).trans (ih (t.record e))

theorem entries_after : (t.after events).entries = t.entries ++ t.added events :=
  (List.prefix_iff_eq_append.1 (t.prefix_after events)).symm

/-- What does not depend on the time of an entry is read off the events. -/
theorem map_added {β : Type} {f : TimelineEntry → β} {g : TraceEvent → β}
    (same : ∀ placed e, f (entryOf placed e) = g e) : (t.added events).map f = events.map g := by
  have all : (t.after events).entries.map f = t.entries.map f ++ events.map g := by
    induction events generalizing t with
    | nil => exact (List.append_nil _).symm
    | cons e events ih =>
      rw [after, List.foldl_cons, ← after, ih, record, List.map_append, List.append_assoc]
      simp [same]
  rw [entries_after, List.map_append] at all
  exact List.append_cancel_left all

end Timeline

/-! ## Events of an output -/

/-- The output that an event names. -/
def TraceEvent.output? : TraceEvent → Option OutputId
  | damage _ output _ _ _ _ | commit _ output _ _ _ _ => some output
  | summary s => some s.output
  | phaseBegin .. | phaseEnd .. | passBegin .. | passSubmit .. | drawSkipped .. => none

namespace FrameLoop

variable {frame : Nat} {output : OutputId} {c : Conditions} {told : List TraceEvent}

theorem Ending.names {b : Buffer} {result : Except PassError Bool}
    (ends : Ending frame output c b result told) : ∀ e ∈ told, ∀ o ∈ e.output?, o = output := by
  cases ends with
  | dropped => simp [TraceEvent.output?]
  | @shown accepted stats =>
    unfold closing submitted
    split <;> simp [TraceEvent.output?]

theorem Story.names {o : FrameOutcome} (story : Story frame output c o told) :
    ∀ e ∈ told, ∀ o ∈ e.output?, o = output := by
  cases story with
  | refused => simp [opening, surveyed, TraceEvent.output?]
  | drawn ends =>
    rw [List.forall_mem_append, List.forall_mem_cons]
    refine ⟨?_, nofun, ends.names⟩
    simp [opening, surveyed, TraceEvent.output?]

end FrameLoop

theorem Film.Told.names {film : Film} (story : film.Told) :
    ∀ e ∈ film.events, ∀ o ∈ e.output?, o = film.output := by
  obtain ⟨c, o, told, report, story, -, events, -, output⟩ := story
  rw [events, List.forall_mem_append, List.forall_mem_singleton]
  refine ⟨story.names, fun o named => ?_⟩
  cases named
  exact output

/-- A film shows a phase that begins and the damage of its output. -/
theorem Film.Told.opens {film : Film} (story : film.Told) :
    (∃ t, .phaseBegin film.frame .damage t ∈ film.events) ∧
      ∃ b rects area full, .damage film.frame film.output b rects area full ∈ film.events := by
  obtain ⟨c, o, told, report, story, -, events, -⟩ := story
  obtain ⟨b, rects, area, full, t₁, t₂, t₃, rest, rfl⟩ := story.opens
  rw [events, FrameLoop.opening]
  exact ⟨⟨t₁, .head _⟩, b.id, rects, area, full, .tail _ (.head _)⟩

/-! ## Entries of a film -/

namespace TimelineEntry

/-- The entries that are placed on the track of an output. -/
def IsPlaced (e : TimelineEntry) : Prop := e.name ∈ ["Damage", "Commit", "FrameSummary"]

/-- What an entry says besides its time. -/
def kind (e : TimelineEntry) : Mark × String × UInt32 := (e.mark, e.name, e.track)

theorem kind_inj {e e' : TimelineEntry} :
    e.kind = e'.kind ↔ e.mark = e'.mark ∧ e.name = e'.name ∧ e.track = e'.track := by
  simp [kind]

end TimelineEntry

namespace Timeline

/-- Only the output that an event names places its entry. -/
theorem track_entryOf (placed : Instant) (e : TraceEvent) :
    ((entryOf placed e).mark ≠ .instant → (entryOf placed e).track = 0) ∧
      ((entryOf placed e).IsPlaced →
        ∃ o ∈ e.output?, (entryOf placed e).track = o.number) := by
  cases e with
  | phaseBegin _ phase | phaseEnd _ phase =>
    refine ⟨fun _ => rfl, fun named => absurd named ?_⟩
    cases phase <;> simp [TimelineEntry.IsPlaced, entryOf, Phase.name]
  | damage _ o | commit _ o => exact ⟨fun span => absurd rfl span, fun _ => ⟨o, rfl, rfl⟩⟩
  | summary s => exact ⟨fun span => absurd rfl span, fun _ => ⟨s.output, rfl, rfl⟩⟩
  | passBegin | passSubmit | drawSkipped =>
    refine ⟨fun span => absurd rfl span, fun named => absurd named ?_⟩
    simp [TimelineEntry.IsPlaced, entryOf]

/-- Every entry is that of an event, but for its time. -/
theorem kinds_added (t : Timeline) (events : List TraceEvent) :
    (t.added events).map TimelineEntry.kind =
      events.map fun e => (entryOf Instant.zero e).kind :=
  t.map_added events fun _ e => by cases e <;> rfl

theorem exists_event {t : Timeline} {events : List TraceEvent} {entry : TimelineEntry}
    (mem : entry ∈ t.added events) :
    ∃ e ∈ events, (entryOf Instant.zero e).kind = entry.kind :=
  List.mem_map.1 (t.kinds_added events ▸ List.mem_map_of_mem mem)

theorem exists_entry (t : Timeline) {events : List TraceEvent} {e : TraceEvent}
    (mem : e ∈ events) :
    ∃ entry ∈ t.added events, entry.kind = (entryOf Instant.zero e).kind :=
  List.mem_map.1 (t.kinds_added events ▸ List.mem_map_of_mem mem)

end Timeline

namespace Film.Told

variable {film : Film} {e : TimelineEntry}

theorem track_of_span (t : Timeline) (mem : e ∈ t.added film.events) (span : e.mark ≠ .instant) :
    e.track = 0 := by
  obtain ⟨event, -, same⟩ := Timeline.exists_event mem
  obtain ⟨mark, -, track⟩ := TimelineEntry.kind_inj.1 same
  rw [← track]
  exact (Timeline.track_entryOf _ event).1 (mark ▸ span)

theorem track_of_placed (story : film.Told) (t : Timeline) (mem : e ∈ t.added film.events)
    (placed : e.IsPlaced) : e.track = film.output.number := by
  obtain ⟨event, listed, same⟩ := Timeline.exists_event mem
  obtain ⟨-, name, track⟩ := TimelineEntry.kind_inj.1 same
  rw [TimelineEntry.IsPlaced, ← name] at placed
  obtain ⟨o, output, number⟩ := (Timeline.track_entryOf _ event).2 placed
  rw [← track, number, story.names event listed o output]

/-- A film opens a span, and it has an entry on the track of its output. -/
theorem exists_entries (story : film.Told) (t : Timeline) :
    (∃ e ∈ t.added film.events, e.mark = .opens) ∧ ∃ e ∈ t.added film.events, e.IsPlaced := by
  obtain ⟨⟨time, begins⟩, b, rects, area, full, damages⟩ := story.opens
  obtain ⟨e, mem, same⟩ := t.exists_entry begins
  obtain ⟨e', mem', same'⟩ := t.exists_entry damages
  refine ⟨⟨e, mem, (TimelineEntry.kind_inj.1 same).1⟩, e', mem', ?_⟩
  rw [TimelineEntry.IsPlaced, (TimelineEntry.kind_inj.1 same').2.1]
  exact .head _

end Film.Told

namespace Filmed

variable {σ σ' : Session} {films before later : List Film} {film : Film}

/-- In the timeline of a session, the entries of each frame stand together. Those of phases lie on
track zero, and those of damage, commits and summaries on the track of the output. So they lie on
one track exactly for the output zero. -/
theorem phases_lie_on_track_zero (filmed : Filmed σ films σ')
    (split : films = before ++ film :: later) :
    let told (films : List Film) := films.flatMap (·.events)
    let entries := (Timeline.ofEvents (told before)).added film.events
    (∃ rest, (Timeline.ofEvents (told films)).entries =
        (Timeline.ofEvents (told before)).entries ++ entries ++ rest) ∧
      (∀ e ∈ entries, e.mark ≠ .instant → e.track = 0) ∧
      (∀ e ∈ entries, e.IsPlaced → e.track = film.output.number) ∧
      ((∀ e ∈ entries, e.mark ≠ .instant → ∀ e' ∈ entries, e'.IsPlaced → e.track = e'.track) ↔
        film.output.number = 0) := by
  intro told entries
  have story : film.Told := filmed.told film (split ▸ List.mem_append_right _ (.head _))
  have spans : ∀ e ∈ entries, e.mark ≠ .instant → e.track = 0 :=
    fun e mem => Film.Told.track_of_span _ mem
  have placed : ∀ e ∈ entries, e.IsPlaced → e.track = film.output.number :=
    fun e mem => story.track_of_placed _ mem
  refine ⟨⟨(Timeline.ofEvents (told before ++ film.events)).added (told later), ?_⟩, spans, placed,
    fun agree => ?_, fun zero e mem span e' mem' there => ?_⟩
  · have parts : told films = told before ++ film.events ++ told later := by
      simp [told, split]
    rw [parts, Timeline.ofEvents_append, Timeline.entries_after, Timeline.ofEvents_append,
      Timeline.entries_after]
  · obtain ⟨⟨e, mem, opens⟩, e', mem', there⟩ := story.exists_entries (.ofEvents (told before))
    have span : e.mark ≠ .instant := by
      rw [opens]
      nofun
    rw [← placed e' mem' there, ← agree e mem span e' mem' there, spans e mem span]
  · rw [spans e mem span, placed e' mem' there, zero]

/-- Two outputs share one session. Both make a frame with the same number; the phases of the second
are not told apart from those of the first, its damage is. -/
theorem second_output_keeps_its_damage :
    ∃ (σ' : Session) (first second : Film), Filmed (.new default) [first, second] σ' ∧
      first.frame = second.frame ∧ first.output = ⟨0⟩ ∧ second.output = ⟨7⟩ ∧
      ∀ e ∈ (Timeline.ofEvents first.events).added second.events,
        (e.mark ≠ .instant → e.track = 0) ∧ (e.IsPlaced → e.track = 7) := by
  have run : Returns (FrameLoop.new ⟨0⟩ 2 1 .double {} (.new ⟨0⟩ false)) (.new default)
      fun d σ => σ.trace = [] ∧
        Returns (FrameLoop.new ⟨7⟩ 2 1 .double {} (.new ⟨7⟩ false)) σ fun d' σ₁ =>
          σ₁.trace = [] ∧ d.output = ⟨0⟩ ∧ d'.output = ⟨7⟩ ∧ d.frames = d'.frames ∧
          Returns (d.makeFrame Rat {} fun _ => ⟨[], none⟩) σ₁ fun _ σ₂ =>
            Returns (d'.makeFrame Rat {} fun _ => ⟨[], none⟩) σ₂ fun _ _ => True := by
    decide +kernel
  obtain ⟨d, σ, made, none, run₁⟩ := run.exists_ok
  obtain ⟨d', σ₁, made', none', zero, seven, same, run₂⟩ := run₁.exists_ok
  obtain ⟨⟨d₁, o⟩, σ₂, frame, run₃⟩ := run₂.exists_ok
  obtain ⟨⟨d₂, o'⟩, σ₃, frame', -⟩ := run₃.exists_ok
  have started : Filmed (.new default) [] σ₁ := Filmed.start.other none'
  obtain ⟨first, number, output, -, filmed⟩ := started.add frame
  obtain ⟨second, number', output', -, filmed'⟩ := filmed.add frame'
  obtain ⟨-, spans, placed, -⟩ := phases_lie_on_track_zero filmed' rfl
  simp only [List.nil_append, List.flatMap_singleton] at spans placed
  refine ⟨σ₃, first, second, filmed', number.trans (same.trans number'.symm), output.trans zero,
    output'.trans seven, fun e mem => ⟨spans e mem, fun there => ?_⟩⟩
  rw [placed e mem there, output', seven]

/-- In a frame of output 1, the phases and the damage do not lie on one track. -/
theorem phase_and_damage_are_apart :
    ∃ (d d' : FrameLoop) (o : FrameOutcome) (σ σ' : Session),
      FrameLoop.new ⟨1⟩ 2 1 .double {} (.new ⟨1⟩ false) (.new default) = .ok d σ ∧
      d.makeFrame Rat {} (fun _ => ⟨[], none⟩) σ = .ok (d', o) σ' ∧ d.output = ⟨1⟩ ∧
      ∃ e ∈ (Timeline.ofEvents σ'.trace).entries, ∃ e' ∈ (Timeline.ofEvents σ'.trace).entries,
        e.mark = .opens ∧ e'.IsPlaced ∧ e.track ≠ e'.track := by
  have run : Returns (FrameLoop.new ⟨1⟩ 2 1 .double {} (.new ⟨1⟩ false)) (.new default)
      fun d σ => σ.trace = [] ∧ d.output = ⟨1⟩ ∧
        Returns (d.makeFrame Rat {} fun _ => ⟨[], none⟩) σ fun _ _ => True := by
    decide +kernel
  obtain ⟨d, σ, made, none, one, run₁⟩ := run.exists_ok
  obtain ⟨⟨d', o⟩, σ', frame, -⟩ := run₁.exists_ok
  have started : Filmed (.new default) [] σ := Filmed.start.other none
  obtain ⟨film, -, output, -, filmed⟩ := started.add frame
  have story := filmed.told film (.head _)
  have events : σ'.trace = film.events := by
    simp [filmed.trace, Session.new]
  obtain ⟨⟨e, mem, opens⟩, e', mem', there⟩ := story.exists_entries Timeline.empty
  refine ⟨d, d', o, σ, σ', made, frame, one, e, events ▸ mem, e', events ▸ mem', opens, there, ?_⟩
  have span : e.mark ≠ .instant := by
    rw [opens]
    nofun
  rw [Film.Told.track_of_span _ mem span, story.track_of_placed _ mem' there, output, one]
  exact (by decide : (0 : UInt32) ≠ 1)

end Filmed

end Compositor
