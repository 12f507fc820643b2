import Compositor.Fault

/-!
# Pixels in byte arrays

A pixel takes four bytes from an offset on. Reading or writing one that does not lie in the array
is a fault.
-/

namespace Compositor.PixelFormat

/-- The colour stored at a byte offset. -/
def read (f : PixelFormat) (bytes : Array UInt8) (offset : Nat) : Except Fault Rgba8 :=
  if inside : offset + 4 ≤ bytes.size then
    .ok (f.decode (bytes[offset], bytes[offset + 1], bytes[offset + 2], bytes[offset + 3]))
  else
    .error .outOfBounds

/-- The bytes after a colour was stored at a byte offset. -/
def write (f : PixelFormat) (bytes : Array UInt8) (offset : Nat) (c : Rgba8) :
    Except Fault (Array UInt8) :=
  if offset + 4 ≤ bytes.size then
    let (p, q, s, t) := f.encode c
    .ok ((((bytes.setIfInBounds offset p).setIfInBounds (offset + 1) q).setIfInBounds
      (offset + 2) s).setIfInBounds (offset + 3) t)
  else
    .error .outOfBounds

theorem size_of_write {f : PixelFormat} {bytes result : Array UInt8} {offset : Nat} {c : Rgba8}
    (h : f.write bytes offset c = .ok result) : result.size = bytes.size := by
  unfold write at h
  split at h
  · simp only [Except.ok.injEq] at h
    subst h
    simp
  · contradiction

end Compositor.PixelFormat

namespace Compositor

/-- The bytes with a run of them replaced from an offset on. -/
def overwrite (bytes : Array UInt8) (offset : Nat) (run : List UInt8) :
    Except Fault (Array UInt8) :=
  if offset + run.length ≤ bytes.size then
    .ok (bytes.extract 0 offset ++ run.toArray ++ bytes.extract (offset + run.length))
  else
    .error .outOfBounds

end Compositor
