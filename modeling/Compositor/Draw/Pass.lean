import Compositor.Draw.Paint
import Compositor.Session

/-!
# Passes

A pass holds one destination for reading and writing and draws into it, stroke by stroke. A texture
that cannot be read is skipped and counted; nothing else changes then. The pass ends when it is
submitted or discarded, and gives the destination back.
-/

namespace Compositor

/-- Why a pass cannot be begun or finished. -/
inductive PassError where
  | destination (cause : AccessError)
  | format
deriving DecidableEq, Repr

def PassError.message : PassError → String
  | destination cause => s!"destination buffer is not accessible: {cause.message}"
  | format => "destination pixel format is not supported by this renderer"

structure PassTally where
  /-- Strokes that were drawn. -/
  ops : Nat := 0
  /-- Textures that could not be read. -/
  skipped : Nat := 0
deriving DecidableEq, Repr

def PassTally.describe (s : PassTally) : String :=
  s!"PassStats \x7b ops: {s.ops}, skipped: {s.skipped} \x7d"

/-- One thing to do in a pass. -/
inductive Stroke where
  | texture (draw : TextureDraw)
  | fill (fill : RectFill)
  /-- Let time pass. -/
  | pause (span : Duration)

structure Pass where
  target : Guard
  /-- When the pass began, if it is timed. -/
  started : Option Instant
  stats : PassTally

structure Renderer where
  /-- The formats that can be drawn into. -/
  formats : List PixelFormat := PixelFormat.all
  /-- Whether passes are timed. -/
  timed : Bool := false

namespace Renderer

def describe (r : Renderer) : String :=
  let formats := ", ".intercalate (r.formats.map PixelFormat.name)
  s!"SoftwareRenderer \x7b formats: [{formats}], timed: {r.timed} \x7d"

open Compositor.Action

/-- Take a buffer as the destination of a new pass. -/
def start (r : Renderer) (b : Buffer) : Action (Except PassError Pass) := do
  if b.format ∉ r.formats then return .error .format
  match ← openAccess b AccessRights.readWrite with
  | .error cause => return .error (.destination cause)
  | .ok target =>
    let started ← if r.timed then some <$> now else pure none
    note ⟨.debug, "software pass begin", [("buffer", s!"{b.id.number}"), ("width", s!"{b.width}"),
      ("height", s!"{b.height}")]⟩
    return .ok ⟨target, started, {}⟩

end Renderer

namespace Pass

def bounds (p : Pass) : Rect := p.target.buffer.bounds

def describe (p : Pass) : String :=
  s!"SoftwarePass \x7b target: {p.target.describe}, bounds: {p.bounds.describe}, " ++
    s!"stats: {p.stats.describe}, .. \x7d"

/-- Count one more stroke as drawn. -/
def counted (p : Pass) : Pass := { p with stats := { p.stats with ops := p.stats.ops + 1 } }

open Compositor.Action

/-- The name of the destination in the log. -/
def logName (p : Pass) : String × String := ("buffer", s!"{p.target.buffer.id.number}")

/-- Blend a shade into the destination. -/
def paint (p : Pass) (mode : Blend) (shade : Shade) (region : Region) : Action Unit :=
  withStore fun s => do
    let b := p.target.buffer
    let s ← s.update p.target fun bytes => do
      return (← Image.paint ⟨b.format, b.stride, bytes⟩ mode shade region).bytes
    return ((), s)

/-- Leave out a texture that cannot be read. -/
def skip (p : Pass) (why : List (String × String)) : Action Pass := do
  note ⟨.warn, "skipping texture draw", p.logName :: why⟩
  return { p with stats := { p.stats with skipped := p.stats.skipped + 1 } }

/-- Draw the texture behind a guard, with positions computed in the scalars `α`. -/
def paintTexture (α : Type) [Scalar α] (p : Pass) (d : TextureDraw) (texture : Guard) :
    Action Unit := do
  let b := texture.buffer
  match TextureDraw.sourceTexels d.effectiveSource b.width b.height with
  | none => note ⟨.trace, "texture draw with an empty source box", []⟩
  | some source =>
    let target := d.effectiveTarget
    let region := covered target p.bounds d.clip
    if !region.isEmpty then
      note ⟨.trace, "texture draw", [("texture", s!"{b.id.number}"), ("src", source.describe),
        ("dst_box", target.describe), ("transform", d.transform.name)]⟩
      let image : Image := ⟨b.format, b.stride, (← get).store.read texture⟩
      p.paint d.blend (image.textureShade α d.transform source target d.filter d.mask) region

/-- Draw a texture, or skip it if it cannot be read. The texture is held for reading meanwhile. -/
def drawTexture (α : Type) [Scalar α] (p : Pass) (d : TextureDraw) : Action Pass := do
  match d.texture with
  | .remote _ _ => p.skip [("reason", "texture has no CPU storage")]
  | .stored b =>
    match ← openAccess b AccessRights.readOnly with
    | .error cause => p.skip [("texture", s!"{b.id.number}"), ("err", cause.message)]
    | .ok texture =>
      unwinding (p.paintTexture α d texture) (·.closeAccess texture)
      closeAccess texture
      return p.counted

/-- Fill a rectangle. -/
def fillRect (p : Pass) (fill : RectFill) : Action Pass := do
  let region := covered fill.target p.bounds fill.clip
  note ⟨.trace, "rect fill", [("dst_box", fill.target.describe)]⟩
  if !region.isEmpty then
    p.paint fill.effectiveBlend (Shade.constant fill.color.quantize) region
  return p.counted

def stroke (α : Type) [Scalar α] (p : Pass) : Stroke → Action Pass
  | .texture d => p.drawTexture α d
  | .fill fill => p.fillRect fill
  | .pause span => do
    pause span
    return p

/-- Do strokes in order; also give the counters after each of them. -/
def strokes (α : Type) [Scalar α] (p : Pass) : List Stroke → Action (Pass × List PassTally)
  | [] => return (p, [])
  | s :: rest => do
    let p ← p.stroke α s
    let (last, stats) ← p.strokes α rest
    return (last, p.stats :: stats)

/-- Give the destination back. -/
def discard (p : Pass) : Action Unit := closeAccess p.target

/-- Finish the pass; its duration is known if it is timed. -/
def finish (p : Pass) : Action (Option Duration) := do
  let elapsed ← match p.started with
    | some start => (fun t => some (Instant.since t start)) <$> now
    | none => pure none
  note ⟨.debug, "software pass submit", [p.logName, ("ops", s!"{p.stats.ops}"),
    ("skipped", s!"{p.stats.skipped}")]⟩
  p.discard
  return elapsed

end Pass

end Compositor
