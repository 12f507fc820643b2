import Compositor.Buffer.Store

/-!
# Access to pixels

Pixels are reached through a guard, which holds a handle and a share of the lock. Ending the access
gives back the lock and then the handle.
-/

namespace Compositor

structure Guard where
  buffer : Buffer
  flags : AccessRights
deriving DecidableEq, Repr

namespace Guard

def describe (g : Guard) : String :=
  s!"BufferAccess \x7b buffer: {g.buffer.id.describe}, flags: {g.flags.describe} \x7d"

end Guard

namespace Store

/-- Open an access, if the buffer can be mapped and no other access conflicts. -/
def openAccess (s : Store) (b : Buffer) (flags : AccessRights) :
    Except AccessError (Guard × Store) :=
  if b.mappable then
    match (s.lock b.id).acquire flags.write with
    | some lock =>
      .ok (⟨b, flags⟩, s.modify b.id fun e => { e with lock, handles := e.handles + 1 })
    | none => .error .busy
  else
    .error .notMappable

def closeAccess (s : Store) (g : Guard) : Store :=
  (s.modify g.buffer.id fun e => { e with lock := e.lock.release }).release g.buffer.id

/-- The bytes behind a guard. -/
def read (s : Store) (g : Guard) : Array UInt8 := s.pixels g.buffer.id

/-- Change the bytes behind a guard that may write. -/
def update (s : Store) (g : Guard) (f : Array UInt8 → Except Fault (Array UInt8)) :
    Except Fault Store :=
  if g.flags.write then do
    let bytes ← f (s.read g)
    return s.modify g.buffer.id fun e => { e with pixels := bytes }
  else
    .error .notWritable

end Store

end Compositor
