import Compositor.DamageRing
import Compositor.Draw.Pass
import Compositor.Output.Headless
import Compositor.Trace.Summary

/-!
# Frames

A frame loop makes the frames of one output. It takes the buffers of its swapchain in turn, asks
the damage ring what the next one lacks, lets a painter draw that, and commits the buffer to the
display. When a frame fails after the ring has rotated, everything is damaged, so no later frame
trusts pixels that were never drawn or shown. A painter that breaks off is no failure of the frame
but a fault: the strokes before it are drawn, logged and traced, and the frame goes no further.

From the moment it takes its buffer, a frame holds a handle of it. The handle goes to the display
with the request, and is given up when the frame does not get that far.
-/

namespace Compositor

structure Swapchain where
  /-- The number of buffers; there is at least one. -/
  buffers : Nat := 2
  format : PixelFormat := .xrgb8888

namespace Swapchain

def double : Swapchain := {}

def triple : Swapchain := { buffers := 3 }

def count (c : Swapchain) : Nat := max c.buffers 1

end Swapchain

structure FrameLoop where
  output : OutputId
  swapchain : Swapchain
  width : UInt32
  height : UInt32
  buffers : List Buffer
  /-- The place of the buffer that the next frame takes. -/
  next : Nat
  ring : DamageRing
  renderer : Renderer
  display : HeadlessDisplay
  /-- The number of frames that were begun. -/
  frames : Nat

/-- What goes wrong around a frame, other than a destination that is in use. -/
structure Conditions where
  /-- The renderer refuses to begin a pass. -/
  startError : Option PassError := none
  /-- The renderer fails to finish the pass, and drops it. -/
  finishError : Option PassError := none
  /-- The display rejects the frame unseen. -/
  rejects : Bool := false

/-- What a painter draws. -/
structure Painting where
  strokes : List Stroke
  /-- Why the painter breaks off after these strokes, if it does. -/
  fault : Option Fault := none

/-- How a frame went. -/
structure FrameOutcome where
  /-- Whether the display accepted the frame, or why it did not get that far. -/
  result : Except PassError Bool
  /-- The damage that the painter was given, and the counters after each of its strokes; `none` if
  no pass was begun. -/
  painted : Option (Region × List PassTally)

/-- A frame whose pass was begun and not yet finished. -/
structure OpenFrame where
  record : FrameRecord
  buffer : Buffer
  damage : Region
  pass : Pass

open Compositor.Action

/-- Do the strokes in a pass, and end with the fault if there is one. -/
def Painting.draw (α : Type) [Scalar α] (painting : Painting) (pass : Pass) :
    Action (Pass × List PassTally) := do
  let drawn ← pass.strokes α painting.strokes
  match painting.fault with
  | some fault => throw fault
  | none => return drawn

/-- Take over what a display did to the store and what it logged. -/
def HeadlessDisplay.Verdict.settle (v : HeadlessDisplay.Verdict) : Action Bool := do
  modifyStore fun _ => v.store
  v.log.forM note
  return v.accepted

namespace FrameRecord

/-- Note that a phase begins now. -/
def enter (r : FrameRecord) (phase : Phase) : Action FrameRecord := do
  let t ← now
  emit (.phaseBegin r.frame phase t)
  return r.beginPhase phase t

/-- Note that a phase ends now. -/
def leave (r : FrameRecord) (phase : Phase) : Action FrameRecord := do
  let t ← now
  emit (.phaseEnd r.frame phase t)
  return r.endPhase phase t

end FrameRecord

/-- Drop what a frame holds while it is drawn: the pass, and the handle of its buffer. -/
def OpenFrame.drop (f : OpenFrame) (s : Store) : Store :=
  (s.closeAccess f.pass.target).release f.buffer.id

/-- Report a pass that was submitted, and the textures that it could not read. -/
def OpenFrame.report (f : OpenFrame) (duration : Option Duration) : Action Unit := do
  let { ops, skipped } := f.pass.stats
  emit (.passSubmit f.record.frame f.buffer.id ops skipped duration)
  if 0 < skipped then emit (.drawSkipped f.record.frame f.buffer.id skipped)

namespace FrameLoop

def logName (d : FrameLoop) : String × String := ("output", s!"{d.output.number}")

/-! ## The swapchain -/

/-- Create a number of buffers. -/
def allocate (config : Swapchain) (width height : UInt32) : Nat → Action (List Buffer)
  | 0 => return []
  | n + 1 => do
    let buffer ← withStore (·.create width height config.format)
    return buffer :: (← allocate config width height n)

/-- Give the swapchain a new size. All buffers are new, and everything is damaged. -/
def resize (d : FrameLoop) (width height : UInt32) : Action FrameLoop := do
  if (width, height) = (d.width, d.height) ∧ d.buffers ≠ [] then return d
  let count := d.swapchain.count
  let buffers ← allocate d.swapchain width height count
  modifyStore (·.dispose ⟨d.buffers.map (·.id), []⟩)
  let (w, h) := (Coord.ofSize width, Coord.ofSize height)
  (d.ring.resizeEvents w h).forM note
  note ⟨.debug, "swapchain allocated", [d.logName, ("width", s!"{width}"),
    ("height", s!"{height}"), ("buffers", s!"{count}")]⟩
  return { d with width, height, buffers, next := 0, ring := d.ring.resize w h }

/-- A loop for an output of the given size. -/
def new (output : OutputId) (width height : UInt32) (swapchain : Swapchain)
    (renderer : Renderer) (display : HeadlessDisplay) : Action FrameLoop :=
  resize ⟨output, swapchain, 0, 0, [], 0, DamageRing.unbounded, renderer, display, 0⟩ width height

/-- Damage a region for the next frame. -/
def damage (d : FrameLoop) (region : Region) : FrameLoop := { d with ring := d.ring.add region }

/-- Damage a rectangle for the next frame. -/
def damageRect (d : FrameLoop) (rect : Rect) : FrameLoop := { d with ring := d.ring.addRect rect }

/-! ## The parts of a frame -/

/-- Take a handle of the next buffer, and ask the ring what that buffer lacks. -/
def takeBuffer (d : FrameLoop) : Action (FrameLoop × Buffer × Region) := do
  match d.buffers[d.next]? with
  | none => throw .outOfBounds
  | some buffer =>
    let alive := (← get).store.isAlive
    modifyStore (·.retain buffer.id)
    let (ring, damage) := d.ring.rotateFor alive buffer.id
    return ({ d with next := (d.next + 1) % d.buffers.length, ring }, buffer, damage)

/-- Whether a number of damaged pixels is all there are. -/
def isFull (d : FrameLoop) (area : Nat) : Bool :=
  match d.ring.bounds with
  | some bounds => area == bounds.area
  | none => false

/-- Close a frame that failed: damage everything, sum up, and give up the buffer. -/
def abandon (d : FrameLoop) (r : FrameRecord) (buffer : Buffer) (message : String)
    (error : PassError) : Action FrameLoop := do
  note ⟨.warn, message, [d.logName, ("frame_index", s!"{r.frame}"), ("err", error.message)]⟩
  emit (.summary r.report)
  modifyStore (·.release buffer.id)
  return { d with ring := d.ring.addEverything }

/-- Begin a pass on a buffer, unless the conditions forbid it. -/
def startPass (d : FrameLoop) (c : Conditions) (buffer : Buffer) :
    Action (Except PassError Pass) :=
  match c.startError with
  | some error => return .error error
  | none => d.renderer.start buffer

/-- Finish a pass, unless the conditions forbid it. -/
def finishPass (c : Conditions) (pass : Pass) : Action (Except PassError (Option Duration)) := do
  match c.finishError with
  | some error =>
    pass.discard
    return .error error
  | none => return .ok (← pass.finish)

/-- Hand a request to the display. -/
def commit (d : FrameLoop) (c : Conditions) (request : OutputRequest) :
    Action (FrameLoop × Bool) := do
  if c.rejects then
    modifyStore request.discard
    return (d, false)
  else
    let (display, verdict) := d.display.commit (← get).store request
    return ({ d with display }, ← verdict.settle)

/-- Log the answer of the display. A frame that it rejects damages everything. -/
def heed (d : FrameLoop) (r : FrameRecord) (accepted : Bool) : Action FrameLoop := do
  let frame := ("frame_index", s!"{r.frame}")
  if accepted then
    note ⟨.debug, "frame committed", [d.logName, frame, ("damaged", s!"{r.area}")]⟩
    return d
  else
    note ⟨.warn, "frame rejected by backend", [d.logName, frame]⟩
    return { d with ring := d.ring.addEverything }

/-- Commit a drawn buffer, and sum up. The frame's handle of the buffer goes into the request. -/
def present (d : FrameLoop) (c : Conditions) (r : FrameRecord) (buffer : Buffer)
    (damage : Region) : Action (FrameLoop × Bool) := do
  let r ← r.enter .commit
  let request := OutputRequest.showing buffer damage
  let (d, accepted) ← d.commit c request
  let d ← d.heed r accepted
  emit (.commit r.frame d.output (some buffer.id) request.staged.mask accepted (← now))
  let r ← r.leave .commit
  emit (.summary { r with committed := accepted }.report)
  return (d, accepted)

/-- Take the next buffer, report what it lacks, and begin a pass on it. -/
def beginFrame (d : FrameLoop) (c : Conditions) :
    Action (FrameLoop × Except PassError OpenFrame) := do
  let frame := d.frames
  let r := FrameRecord.new frame d.output (← now)
  let r ← r.enter .damage
  let (d, buffer, damage) ← takeBuffer { d with frames := frame + 1 }
  let area ← unwinding (ofExcept damage.area) (·.release buffer.id)
  let rects := min damage.rects.length (UInt32.size - 1)
  emit (.damage frame d.output buffer.id rects area (d.isFull area))
  let r ← { r with area }.leave .damage
  let r ← r.enter .render
  match ← d.startPass c buffer with
  | .error error => return (← d.abandon r buffer "frame failed to begin" error, .error error)
  | .ok pass =>
    emit (.passBegin frame buffer.id buffer.width buffer.height)
    return (d, .ok ⟨r, buffer, damage, pass⟩)

/-- Finish the pass of a frame, after it was drawn, and commit its buffer. -/
def endFrame (d : FrameLoop) (c : Conditions) (f : OpenFrame) :
    Action (FrameLoop × Except PassError Bool) := do
  let r ← f.record.leave .render
  let r ← r.enter .submit
  match ← finishPass c f.pass with
  | .error error => return (← d.abandon r f.buffer "frame failed to submit" error, .error error)
  | .ok duration =>
    f.report duration
    let r ← r.leave .submit
    let (d, accepted) ← d.present c r f.buffer f.damage
    return (d, .ok accepted)

/-- Make one frame. The painter says what to draw into a buffer of which the given region is
damaged; positions in textures are computed in the scalars `α`. -/
def makeFrame (α : Type) [Scalar α] (d : FrameLoop) (c : Conditions)
    (painter : Region → Painting) : Action (FrameLoop × FrameOutcome) := do
  let (d, opened) ← d.beginFrame c
  match opened with
  | .error error => return (d, ⟨.error error, none⟩)
  | .ok f =>
    let (pass, stats) ← unwinding ((painter f.damage).draw α f.pass) f.drop
    let (d, result) ← d.endFrame c { f with pass }
    return (d, ⟨result, some (f.damage, stats)⟩)

end FrameLoop

end Compositor
