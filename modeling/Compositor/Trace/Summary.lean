import Compositor.Trace.Event

/-!
# Summing up a frame

While a frame is made, a record keeps when each phase began and ended last. From these times come
the durations of the summary.
-/

namespace Compositor

structure FrameRecord where
  frame : Nat
  output : OutputId
  start : Instant
  begun : Phase → Option Instant
  ended : Phase → Option Instant
  area : Nat
  committed : Bool

namespace FrameRecord

def new (frame : Nat) (output : OutputId) (start : Instant) : FrameRecord :=
  ⟨frame, output, start, fun _ => none, fun _ => none, 0, false⟩

def beginPhase (r : FrameRecord) (phase : Phase) (t : Instant) : FrameRecord :=
  { r with begun := fun p => if p = phase then some t else r.begun p }

def endPhase (r : FrameRecord) (phase : Phase) (t : Instant) : FrameRecord :=
  { r with ended := fun p => if p = phase then some t else r.ended p }

/-- The time from the beginning to the end of a phase, or none if one of them is not known. -/
def span (r : FrameRecord) (phase : Phase) : Duration :=
  match r.begun phase, r.ended phase with
  | some t, some u => u.since t
  | _, _ => Duration.zero

def report (r : FrameRecord) : FrameReport where
  frame := r.frame
  output := r.output
  start := r.start
  damage := r.span .damage
  render := r.span .render
  submit := r.span .submit
  commit := r.span .commit
  area := r.area
  committed := r.committed

end FrameRecord

end Compositor
