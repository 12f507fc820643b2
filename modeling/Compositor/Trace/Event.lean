import Compositor.Output.Change
import Compositor.Time

/-!
# Trace events

What a frame reports while it is made. A frame has four phases, which begin and end; the damage, the
pass and the commit are reported inside them, and a summary closes the frame.
-/

namespace Compositor

inductive Phase where
  /-- Choose a buffer and find out what it lacks. -/
  | damage
  /-- Draw into a pass. -/
  | render
  /-- Finish the pass. -/
  | submit
  /-- Hand the buffer to the display. -/
  | commit
deriving DecidableEq, Repr

namespace Phase

/-- The phases in the order of a frame. -/
def all : List Phase := [damage, render, submit, commit]

def name : Phase → String
  | damage => "damage"
  | render => "render"
  | submit => "submit"
  | commit => "commit"

def ofName? (s : String) : Option Phase := all.find? (·.name == s)

theorem ofName?_name (p : Phase) : ofName? p.name = some p := by
  cases p <;> decide

end Phase

/-- What is known of a frame when it is over. A phase that did not end took no time. -/
structure FrameReport where
  frame : Nat
  output : OutputId
  start : Instant
  damage : Duration
  render : Duration
  submit : Duration
  commit : Duration
  /-- The number of damaged pixels. -/
  area : Nat
  /-- Whether the frame reached the display. -/
  committed : Bool
deriving DecidableEq, Repr

inductive TraceEvent where
  | damage (frame : Nat) (output : OutputId) (buffer : BufferId) (rects area : Nat) (full : Bool)
  | phaseBegin (frame : Nat) (phase : Phase) (time : Instant)
  | phaseEnd (frame : Nat) (phase : Phase) (time : Instant)
  | passBegin (frame : Nat) (buffer : BufferId) (width height : UInt32)
  /-- A pass was finished; its duration is known if it was timed. -/
  | passSubmit (frame : Nat) (buffer : BufferId) (ops skipped : Nat) (duration : Option Duration)
  | drawSkipped (frame : Nat) (buffer : BufferId) (count : Nat)
  | commit (frame : Nat) (output : OutputId) (buffer : Option BufferId) (fields : FieldMask)
      (accepted : Bool) (time : Instant)
  | summary (report : FrameReport)
deriving DecidableEq, Repr

end Compositor
