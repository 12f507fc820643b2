import Compositor.Pixel.Format

/-!
# Faults

A fault stops a computation: exact arithmetic that leaves its width, an index outside a table, a
broken precondition, or a painter that breaks off. Faults are causes; `Fault.message?` holds the
wording.
-/

namespace Compositor

inductive Arithmetic where
  | add
  | subtract
  | multiply
deriving DecidableEq, Repr

inductive Fault where
  /-- An exact result does not fit its width. -/
  | overflow (operation : Arithmetic)
  /-- An index lies outside a table. -/
  | outOfBounds
  /-- A byte count fits a word and still exceeds what can be stored. -/
  | capacity
  /-- The pixel data of a new buffer has the wrong length. -/
  | pixelLength (width height : UInt32) (format : PixelFormat)
  /-- Pixels were to be changed through an access without the right to write. -/
  | notWritable
  /-- A painter broke off, for a reason of its own. -/
  | brokenOff (reason : String)
deriving DecidableEq, Repr

namespace Fault

/-- The text of a fault; an index outside a table and a capacity have none. -/
def message? : Fault → Option String
  | overflow .add => some "attempt to add with overflow"
  | overflow .subtract => some "attempt to subtract with overflow"
  | overflow .multiply => some "attempt to multiply with overflow"
  | outOfBounds => none
  | capacity => none
  | pixelLength width height format =>
    some s!"pixel data does not match a {width}x{height} {format.name} buffer"
  | notWritable => some "buffer access was not acquired for writing"
  | brokenOff reason => some reason

end Fault

end Compositor
