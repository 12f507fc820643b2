import Compositor.Text.Json.Printer
import Compositor.Trace.Event

/-!
# Timelines

A timeline places events on tracks, for a viewer that reads a list of JSON objects. Phases are spans
that open and close at their own times. All other events are instants, placed at the latest time
that the timeline has seen.
-/

namespace Compositor

inductive Mark where
  | opens
  | closes
  | instant
deriving DecidableEq, Repr

def Mark.letter : Mark → String
  | opens => "B"
  | closes => "E"
  | instant => "i"

/-- One object of a timeline. -/
structure TimelineEntry where
  mark : Mark
  name : String
  category : String
  time : Instant
  track : UInt32
  details : List (String × Text.Json)

structure Timeline where
  entries : List TimelineEntry
  /-- The latest time seen. -/
  latest : Instant

namespace Timeline

open Text

def empty : Timeline := ⟨[], Instant.zero⟩

/-- The time that an event brings along. -/
def timeOf : TraceEvent → Instant
  | .phaseBegin _ _ time | .phaseEnd _ _ time | .commit _ _ _ _ _ time => time
  | .summary s => s.start
  | .damage .. | .passBegin .. | .passSubmit .. | .drawSkipped .. => Instant.zero

/-- What an event tells, placed at a time unless it is the edge of a span. -/
def entryOf (placed : Instant) : TraceEvent → TimelineEntry
  | .damage frame output buffer rects area full =>
    ⟨.instant, "Damage", "Frame", placed, output.number,
      [("frame_index", .int frame), ("buffer", .int buffer.number), ("rects", .int rects),
        ("area", .int area), ("full", .bool full)]⟩
  | .phaseBegin frame phase time =>
    ⟨.opens, phase.name, "Frame", time, 0, [("frame_index", .int frame)]⟩
  | .phaseEnd frame phase time =>
    ⟨.closes, phase.name, "Frame", time, 0, [("frame_index", .int frame)]⟩
  | .passBegin frame buffer width height =>
    ⟨.instant, "PassBegin", "Render", placed, 0,
      [("frame_index", .int frame), ("buffer", .int buffer.number), ("width", .int width.toNat),
        ("height", .int height.toNat)]⟩
  | .passSubmit frame buffer ops skipped duration =>
    ⟨.instant, "PassSubmit", "Render", placed, 0,
      [("frame_index", .int frame), ("buffer", .int buffer.number), ("ops", .int ops),
        ("skipped", .int skipped),
        ("gpu_us", (duration.map fun d => Json.float d.inMicros).getD .null)]⟩
  | .drawSkipped frame buffer count =>
    ⟨.instant, "DrawSkipped", "Render", placed, 0,
      [("frame_index", .int frame), ("buffer", .int buffer.number), ("count", .int count)]⟩
  | .commit frame output buffer fields accepted _ =>
    ⟨.instant, "Commit", "Output", placed, output.number,
      [("frame_index", .int frame),
        ("buffer", (buffer.map fun b => Json.int b.number).getD .null),
        ("fields", .int fields.bits), ("accepted", .bool accepted)]⟩
  | .summary s =>
    ⟨.instant, "FrameSummary", "Summary", placed, s.output.number,
      [("frame_index", .int s.frame), ("start_us", .float s.start.inMicros),
        ("damage_us", .float s.damage.inMicros), ("render_us", .float s.render.inMicros),
        ("submit_us", .float s.submit.inMicros), ("commit_us", .float s.commit.inMicros),
        ("damaged_area", .int s.area), ("committed", .bool s.committed)]⟩

/-- Add the entry of one event. -/
def record (t : Timeline) (e : TraceEvent) : Timeline :=
  let latest := t.latest.latest (timeOf e)
  ⟨t.entries ++ [entryOf latest e], latest⟩

def ofEvents (events : List TraceEvent) : Timeline := events.foldl record empty

end Timeline

/-- The object of an entry; an instant says that it concerns its track only. -/
def TimelineEntry.toJson (e : TimelineEntry) : Text.Json :=
  let members := [("ph", .text e.mark.letter), ("name", .text e.name), ("cat", .text e.category),
    ("ts", .float e.time.inMicros), ("pid", .int e.track.toNat), ("tid", .int 0),
    ("args", .object e.details)]
  .object (if e.mark = .instant then ("s", .text "t") :: members else members)

/-- The text that a viewer reads. -/
def Timeline.render (t : Timeline) : String :=
  Text.Json.render "" (.array (t.entries.map TimelineEntry.toJson))

end Compositor
