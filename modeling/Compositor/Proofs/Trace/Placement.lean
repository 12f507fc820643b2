import Mathlib.Order.Bounds.Defs
import Compositor.Proofs.Frame.Breaks
import Compositor.Proofs.Trace.Tracks

/-!
# Entries in the order of time

A timeline keeps the latest time that it has seen. The edges of spans lie at times of their own, and
a summary brings a time that lies back, the start of its frame; so entries of any list of events
need not lie in order. In a session, the times of events are readings that rise, and each summary
starts before the events of its frame. Main statement: every event adds one entry, an instant at the
latest time so far; and for any loops that make frames on one clock that never goes backwards, the
entries lie in the order of time, also where frames fail or break off.
-/

namespace Compositor

open Compositor.Action

namespace Instant

theorem le_latest_left (t u : Instant) : t ≤ t.latest u := by
  grind [latest, UInt64.lt_iff_toNat_lt]

theorem le_latest_right (t u : Instant) : u ≤ t.latest u := by
  grind [latest, UInt64.lt_iff_toNat_lt]

theorem latest_le {t u v : Instant} (left : t ≤ v) (right : u ≤ v) : t.latest u ≤ v := by
  grind [latest]

theorem latest_eq (t u : Instant) : t.latest u = t ∨ t.latest u = u := by
  grind [latest]

theorem zero_le (t : Instant) : zero ≤ t := le_iff.2 (Nat.zero_le _)

theorem latest_zero (t : Instant) : t.latest zero = t :=
  if_neg (UInt64.not_lt_zero)

theorem isGreatest_concat {ts : List Instant} {t : Instant} (greatest : IsGreatest {v | v ∈ ts} t)
    (u : Instant) : IsGreatest {v | v ∈ ts ++ [u]} (t.latest u) := by
  constructor
  · obtain same | same := latest_eq t u <;> rw [same]
    · exact List.mem_append_left _ greatest.1
    · exact List.mem_append_right _ (.head _)
  · intro v mem
    obtain old | new := List.mem_append.1 mem
    · exact le_trans (greatest.2 old) (le_latest_left t u)
    · rw [List.mem_singleton.1 new]
      exact le_latest_right t u

end Instant

namespace TraceEvent

/-- The time that an event brings along: its own, or the start of the frame that it sums up. -/
def stamp? : TraceEvent → Option Instant
  | summary s => some s.start
  | e => e.time?

/-- When a phase begins or ends, if it does so with this event. -/
def edge? : TraceEvent → Option Instant
  | phaseBegin _ _ t | phaseEnd _ _ t => some t
  | damage .. | passBegin .. | passSubmit .. | drawSkipped .. | commit .. | summary .. => none

/-- The times that some events bring along. -/
def stamps (events : List TraceEvent) : List Instant := events.filterMap stamp?

variable {e : TraceEvent} {t : Instant}

theorem time?_of_edge? (edge : e.edge? = some t) : e.time? = some t := by
  cases e with
  | phaseBegin | phaseEnd => exact edge
  | _ => cases edge

theorem stamp?_of_time? (timed : e.time? = some t) : e.stamp? = some t := by
  cases e with
  | phaseBegin | phaseEnd | commit => exact timed
  | _ => cases timed

/-- Only a summary brings a time that is not its own. -/
theorem exists_summary (untimed : e.time? = none) (stamped : e.stamp? = some t) :
    ∃ s, e = summary s ∧ s.start = t := by
  cases e with
  | summary s => exact ⟨s, rfl, Option.some.inj stamped⟩
  | _ => cases untimed.symm.trans stamped

end TraceEvent

namespace Timeline

open TraceEvent

variable {t : Timeline} {e : TraceEvent} {events : List TraceEvent} {low high : Instant}

/-! ## The latest time -/

theorem timeOf_eq (e : TraceEvent) : timeOf e = e.stamp?.getD Instant.zero := by
  cases e <;> rfl

theorem latest_record (t : Timeline) (e : TraceEvent) :
    (t.record e).latest = t.latest.latest (e.stamp?.getD Instant.zero) := by
  rw [← timeOf_eq]
  rfl

theorem ofEvents_concat (events : List TraceEvent) (e : TraceEvent) :
    ofEvents (events ++ [e]) = (ofEvents events).record e :=
  ofEvents_append events [e]

/-- The latest time is the greatest of those that the events brought along, and zero if they brought
none. -/
theorem isGreatest_latest (events : List TraceEvent) :
    IsGreatest {t | t ∈ Instant.zero :: stamps events} (ofEvents events).latest := by
  induction events using List.reverseRecOn with
  | nil =>
    refine ⟨.head _, fun t mem => ?_⟩
    rw [List.mem_singleton.1 mem]
    exact Instant.le_refl _
  | append_singleton events e ih =>
    rw [ofEvents_concat, latest_record]
    cases stamped : e.stamp? with
    | none => simpa [stamps, stamped, Instant.latest_zero] using ih
    | some u => simpa [stamps, stamped] using Instant.isGreatest_concat ih u

/-! ## Places -/

theorem time_entryOf (placed : Instant) (e : TraceEvent) :
    (entryOf placed e).time = e.edge?.getD placed := by
  cases e <;> rfl

theorem length_entries (events : List TraceEvent) :
    (ofEvents events).entries.length = events.length := by
  induction events using List.reverseRecOn with
  | nil => rfl
  | append_singleton events e ih => simp [ofEvents_concat, record, ih]

/-- An entry keeps its place, whatever is recorded later. -/
theorem getElem?_ofEvents (before : List TraceEvent) (e : TraceEvent) (later : List TraceEvent) :
    (ofEvents (before ++ e :: later)).entries[before.length]? =
      some (entryOf (ofEvents (before ++ [e])).latest e) := by
  have first : (ofEvents (before ++ [e])).entries =
      (ofEvents before).entries ++ [entryOf (ofEvents (before ++ [e])).latest e] := by
    rw [ofEvents_concat]
    rfl
  rw [List.append_cons, ofEvents_append, entries_after, first, ← length_entries before]
  simp

/-! ## Order -/

/-- The entries lie in the order of time, none after the latest time; `now` is not before that. -/
structure Orderly (t : Timeline) (now : Instant) : Prop where
  sorted : (t.entries.map (·.time)).Pairwise (· ≤ ·)
  reached : ∀ entry ∈ t.entries, entry.time ≤ t.latest
  passed : t.latest ≤ now

namespace Orderly

theorem empty (now : Instant) : Timeline.empty.Orderly now :=
  ⟨.nil, nofun, Instant.zero_le now⟩

theorem mono (orderly : t.Orderly low) (order : low ≤ high) : t.Orderly high :=
  { orderly with passed := Instant.le_trans orderly.passed order }

/-- A new entry lies between the latest time before it and the latest time after it. -/
theorem entry_between (orderly : t.Orderly low) (rises : ∀ u, e.time? = some u → low ≤ u) :
    t.latest ≤ (entryOf (t.record e).latest e).time ∧
      (entryOf (t.record e).latest e).time ≤ (t.record e).latest := by
  have passed := orderly.passed
  rw [time_entryOf, latest_record]
  cases edge : e.edge? with
  | none => exact ⟨Instant.le_latest_left _ _, Instant.le_refl _⟩
  | some u =>
    have timed := time?_of_edge? edge
    rw [stamp?_of_time? timed]
    exact ⟨Instant.le_trans passed (rises u timed), Instant.le_latest_right _ u⟩

/-- An event with a time of its own comes next; any other may bring a time that has passed. -/
theorem record (orderly : t.Orderly low) (rises : ∀ u, e.time? = some u → low ≤ u)
    (order : low ≤ high) (known : ∀ u, e.stamp? = some u → u ≤ high) :
    (t.record e).Orderly high := by
  obtain ⟨after, before⟩ := orderly.entry_between rises
  refine ⟨?_, fun entry mem => ?_, ?_⟩
  · rw [Timeline.record, List.map_append, List.pairwise_append]
    refine ⟨orderly.sorted, List.pairwise_singleton _ _, fun u mem v last => ?_⟩
    obtain ⟨entry, listed, rfl⟩ := List.mem_map.1 mem
    rw [List.mem_singleton.1 last]
    exact Instant.le_trans (orderly.reached entry listed) after
  · obtain old | new := List.mem_append.1 mem
    · exact Instant.le_trans (orderly.reached entry old) (Instant.le_trans after before)
    · rw [List.mem_singleton.1 new]
      exact before
  · rw [latest_record]
    refine Instant.latest_le (Instant.le_trans orderly.passed order) ?_
    cases stamped : e.stamp? with
    | none => exact Instant.zero_le high
    | some u => exact known u stamped

/-- Events whose times rise, with summaries of frames that started before, keep the order. -/
theorem after (orderly : t.Orderly low) (rising : Instant.Rising low (times events) high)
    (started : ∀ s, .summary s ∈ events → s.start ≤ low) : (t.after events).Orderly high := by
  induction events generalizing t low with
  | nil => exact orderly.mono rising
  | cons e events ih =>
    have later {u : Instant} (order : low ≤ u) (s : FrameReport) (mem : .summary s ∈ events) :
        s.start ≤ u := Instant.le_trans (started s (.tail _ mem)) order
    -- A reading of the clock is the bound for the events after it; other events leave the bound.
    cases timed : e.time? with
    | some u =>
      rw [times, List.filterMap_cons_some timed] at rising
      obtain ⟨first, rest⟩ := rising
      refine ih (orderly.record (fun v same => ?_) first fun v same => ?_) rest (later first)
      · cases timed.symm.trans same
        exact first
      · cases (stamp?_of_time? timed).symm.trans same
        exact Instant.le_refl _
    | none =>
      rw [times, List.filterMap_cons_none timed] at rising
      refine ih (orderly.record (fun v same => ?_) (Instant.le_refl _) fun v same => ?_) rising
        (later (Instant.le_refl _))
      · cases timed.symm.trans same
      · obtain ⟨s, rfl, rfl⟩ := exists_summary timed same
        exact started s (.head _)

end Orderly

/-- With a clock that goes backwards, the entries would go backwards as well. -/
example : ¬ ((ofEvents [.phaseBegin 0 .damage ⟨5⟩, .phaseEnd 0 .damage ⟨3⟩]).entries.map
    (·.time.nanos)).Pairwise (· ≤ ·) := by
  decide

end Timeline

/-! ## Sessions -/

/-- A session in which any loops make frames, and some of these fail or break off. Between two
frames anything may happen that reports nothing. -/
inductive Filming (σ : Session) : Session → Prop
  | start : Filming σ σ
  | frame {σ₁ σ₂ : Session} {α : Type} [Scalar α] {d : FrameLoop} {c : Conditions}
      {painter : Region → Painting} : Filming σ σ₁ → Leaves (d.makeFrame α c painter) σ₁ σ₂ →
    Filming σ σ₂
  | other {σ₁ σ₂ : Session} : Filming σ σ₁ → σ₁.Reports [] σ₂ → Filming σ σ₂

namespace Filming

open Timeline

variable {σ σ₁ σ' : Session} {told : List TraceEvent}

/-- What is reported in order is placed in order. -/
theorem placed_of_reports (orderly : (ofEvents σ.trace).Orderly σ.clock.next)
    (forward : σ.clock.Forward) (reports : σ.Reports told σ')
    (started : ∀ s, .summary s ∈ told → s.start = σ.clock.next) :
    (ofEvents σ'.trace).Orderly σ'.clock.next ∧ σ'.clock.Forward := by
  obtain ⟨forward', rising⟩ := reports.clock forward
  rw [reports.trace, ofEvents_append]
  exact ⟨orderly.after rising fun s mem => started s mem ▸ Instant.le_refl _, forward'⟩

theorem orderly (filming : Filming σ σ') (untold : σ.trace = []) (forward : σ.clock.Forward) :
    (ofEvents σ'.trace).Orderly σ'.clock.next ∧ σ'.clock.Forward := by
  induction filming with
  | start => exact ⟨untold ▸ .empty _, forward⟩
  | frame _ leaves ih =>
    obtain ⟨told, reports, started⟩ := FrameLoop.makeFrame_starts leaves
    exact placed_of_reports ih.1 ih.2 reports started
  | other _ reports ih => exact placed_of_reports ih.1 ih.2 reports nofun

end Filming

namespace Timeline

open TraceEvent

/-- Every event adds one entry, in order: a phase at its own time, any other event at the latest of
the times that the events brought along so far. If loops make frames in one session, on a clock that
never goes backwards, then no entry lies before the one that it follows, whichever frames failed or
broke off. -/
theorem entries_lie_in_time_order (events : List TraceEvent) :
    (ofEvents events).entries.length = events.length ∧
    (∀ before e later, events = before ++ e :: later →
      ∃ placed, IsGreatest {t | t ∈ Instant.zero :: stamps (before ++ [e])} placed ∧
        (ofEvents events).entries[before.length]? = some (entryOf placed e) ∧
        (entryOf placed e).time = e.edge?.getD placed) ∧
    ∀ σ σ' : Session, σ.trace = [] → σ.clock.Forward → Filming σ σ' →
      ((ofEvents σ'.trace).entries.map (·.time)).Pairwise (· ≤ ·) := by
  refine ⟨length_entries events, fun before e later split => ?_,
    fun σ σ' untold forward filming => (filming.orderly untold forward).1.sorted⟩
  exact ⟨_, isGreatest_latest (before ++ [e]), split ▸ getElem?_ofEvents before e later,
    time_entryOf _ e⟩

/-- Two outputs share one clock. A frame of the first is refused; its summary brings the time zero,
and is placed where its last phase began. A frame of the second breaks off, and then the first shows
one: all entries lie in order. -/
theorem summary_is_placed_after_its_frame :
    let told : List TraceEvent := [.phaseBegin 0 .damage ⟨1⟩, .damage 0 ⟨1⟩ ⟨0⟩ 1 2 true,
      .phaseEnd 0 .damage ⟨2⟩, .phaseBegin 0 .render ⟨3⟩]
    let s : FrameReport := ⟨0, ⟨1⟩, ⟨0⟩, ⟨1⟩, ⟨0⟩, ⟨0⟩, ⟨0⟩, 2, false⟩
    ∃ (d d' d₁ d₂ : FrameLoop) (σ₀ σ σ₁ σ₂ σ₃ : Session) (o₁ o₂ : FrameOutcome) (fault : Fault)
      (entry : TimelineEntry),
      FrameLoop.new ⟨1⟩ 2 1 .double {} (.new ⟨1⟩ false) (.new (.steps Instant.zero ⟨1⟩)) =
        .ok d σ₀ ∧
      FrameLoop.new ⟨7⟩ 2 1 .double {} (.new ⟨7⟩ false) σ₀ = .ok d' σ ∧
      d.makeFrame Rat { startError := some .format } (fun _ => ⟨[], none⟩) σ = .ok (d₁, o₁) σ₁ ∧
      d'.makeFrame Rat {} (fun _ => ⟨[], some .outOfBounds⟩) σ₁ = .error fault σ₂ ∧
      d₁.makeFrame Rat {} (fun _ => ⟨[], none⟩) σ₂ = .ok (d₂, o₂) σ₃ ∧
      σ₁.trace = told ++ [.summary s] ∧
      (ofEvents σ₁.trace).entries[told.length]? = some entry ∧ entry.time = ⟨3⟩ ∧
      ((ofEvents σ₃.trace).entries.map (·.time)).Pairwise (· ≤ ·) := by
  intro told s
  have run : Returns (FrameLoop.new ⟨1⟩ 2 1 .double {} (.new ⟨1⟩ false))
      (.new (.steps Instant.zero ⟨1⟩)) fun d σ₀ =>
        Returns (FrameLoop.new ⟨7⟩ 2 1 .double {} (.new ⟨7⟩ false)) σ₀ fun d' σ =>
          Returns (d.makeFrame Rat { startError := some .format } fun _ => ⟨[], none⟩) σ
            fun made σ₁ => σ₁.trace = told ++ [.summary s] ∧
              Breaks (d'.makeFrame Rat {} fun _ => ⟨[], some .outOfBounds⟩) σ₁ fun _ σ₂ =>
                Returns (made.1.makeFrame Rat {} fun _ => ⟨[], none⟩) σ₂ fun _ _ => True := by
    decide +kernel
  obtain ⟨d, σ₀, new, run₁⟩ := run.exists_ok
  obtain ⟨d', σ, new', run₂⟩ := run₁.exists_ok
  obtain ⟨⟨d₁, o₁⟩, σ₁, refused, trace, run₃⟩ := run₂.exists_ok
  obtain ⟨fault, σ₂, broken, run₄⟩ := run₃.exists_error
  obtain ⟨⟨d₂, o₂⟩, σ₃, shown, -⟩ := run₄.exists_ok
  have filming : Filming (.new (.steps Instant.zero ⟨1⟩)) σ₃ :=
    (((Filming.start.other (FrameLoop.silent_resize _ _ _ new)).other
      (FrameLoop.silent_resize _ _ _ new')).frame (.returned refused)).frame (.broken broken)
      |>.frame (.returned shown)
  obtain ⟨-, placed, sorted⟩ := entries_lie_in_time_order σ₁.trace
  obtain ⟨time, ⟨brought, greatest⟩, found, same⟩ := placed told (.summary s) [] trace
  refine ⟨d, d', d₁, d₂, σ₀, σ, σ₁, σ₂, σ₃, o₁, o₂, fault, _, new, new', refused, broken, shown,
    trace, found, same.trans ?_, sorted _ σ₃ rfl (Clock.forward_steps _ _) filming⟩
  have only : ∀ t ∈ Instant.zero :: stamps (told ++ [.summary s]), 3 ≤ t.nanos → t = ⟨3⟩ := by
    decide
  exact only time brought (greatest (by decide))

end Timeline

end Compositor
