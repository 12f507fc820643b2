import Compositor.Word
import Compositor.Geometry.Rect

/-!
# Buffers and the right to use them

A `Buffer` is a handle: what it says of a buffer (number, size, format, whether a processor can map
it) never changes, so it is plain data. Pixels, locks and counts change, and live in a `Store`.
-/

namespace Compositor

/-- The place of a buffer in the order of creation. -/
structure BufferId where
  index : Nat
deriving DecidableEq, Repr, Inhabited

namespace BufferId

/-- Buffers are numbered from one. -/
def number (id : BufferId) : Nat := id.index + 1

def describe (id : BufferId) : String := s!"BufferId({id.number})"

end BufferId

structure Buffer where
  id : BufferId
  width : UInt32
  height : UInt32
  format : PixelFormat
  mappable : Bool
deriving DecidableEq, Repr, Inhabited

namespace Buffer

/-- Bytes from one row to the next. -/
def stride (b : Buffer) : Nat := b.width.toNat * PixelFormat.bytesPerPixel

/-- The rectangle of all pixels; sides beyond the coordinate range are cut to it. -/
def bounds (b : Buffer) : Rect := Rect.ofSize (Coord.ofSize b.width) (Coord.ofSize b.height)

def describe (b : Buffer) : String :=
  s!"Buffer \x7b id: {b.id.describe}, width: {b.width}, height: {b.height}, " ++
    s!"format: {b.format.name}, .. \x7d"

/-- How a handle that does not keep its buffer alive is written. -/
def describeWeak (b : Buffer) (destroyed : Bool) : String :=
  s!"WeakBuffer \x7b id: {b.id.describe}, destroyed: {destroyed}, .. \x7d"

/-- The bytes of all pixels; their number has to fit 64 bits. -/
def byteCount (width height : UInt32) : Except Fault Nat :=
  Word.mul (width.toNat * height.toNat) PixelFormat.bytesPerPixel

end Buffer

/-- What an access is for. Anything without `write` shares the buffer with other readers. -/
structure AccessRights where
  read : Bool
  write : Bool
deriving DecidableEq, Repr

namespace AccessRights

def readOnly : AccessRights := ⟨true, false⟩

def readWrite : AccessRights := ⟨true, true⟩

def bits (f : AccessRights) : Nat := f.read.toNat + 2 * f.write.toNat

def describe : AccessRights → String
  | ⟨true, true⟩ => "AccessFlags(READ | WRITE)"
  | ⟨true, false⟩ => "AccessFlags(READ)"
  | ⟨false, true⟩ => "AccessFlags(WRITE)"
  | ⟨false, false⟩ => "AccessFlags(0x0)"

end AccessRights

/-- Why an access is refused. -/
inductive AccessError where
  /-- The buffer has no memory that a processor can map. -/
  | notMappable
  /-- Another access conflicts. -/
  | busy
deriving DecidableEq, Repr

def AccessError.message : AccessError → String
  | notMappable => "buffer cannot be mapped for CPU access"
  | busy => "buffer is already mapped with a conflicting access"

/-- The lock of a buffer: free, shared by a number of readers, or held by one writer. -/
inductive Lock where
  | idle
  | reading (readers : Nat)
  | writing
deriving DecidableEq, Repr, Inhabited

namespace Lock

/-- The lock after one more access, or `none` if the access conflicts. -/
def acquire : Lock → (write : Bool) → Option Lock
  | idle, true => some writing
  | idle, false => some (reading 1)
  | reading n, false => some (reading (n + 1))
  | reading _, true | writing, _ => none

/-- The lock after an access ended. -/
def release : Lock → Lock
  | reading n => if 1 < n then reading (n - 1) else idle
  | idle | writing => idle

end Lock

end Compositor
