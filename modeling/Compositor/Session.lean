import Compositor.Buffer.Access
import Compositor.Log
import Compositor.Trace.Event

/-!
# Sessions

A session is everything that drawing changes: the store, the clock, and what was logged and traced,
the oldest first. An action works on a session. A fault ends the action and keeps the session as it
was left, so nothing that was reported before is lost.
-/

namespace Compositor

structure Session where
  store : Store
  clock : Clock
  log : List Log.Event
  trace : List TraceEvent

namespace Session

def new (clock : Clock) : Session := ⟨Store.empty, clock, [], []⟩

end Session

abbrev Action := EStateM Fault Session

namespace Action

/-- Change the store, or end with its fault. -/
def withStore {α : Type} (f : Store → Except Fault (α × Store)) : Action α := do
  match f (← get).store with
  | .ok (a, store) =>
    modify ({ · with store })
    return a
  | .error fault => throw fault

def modifyStore (f : Store → Store) : Action Unit := modify fun s => { s with store := f s.store }

/-- Open an access, if nothing stands against it. -/
def openAccess (b : Buffer) (flags : AccessRights) : Action (Except AccessError Guard) := do
  match (← get).store.openAccess b flags with
  | .ok (guard, store) =>
    modify ({ · with store })
    return .ok guard
  | .error cause => return .error cause

def closeAccess (g : Guard) : Action Unit := modifyStore (·.closeAccess g)

/-- Do an action. If it breaks off, then what its caller holds is dropped on the way out. -/
def unwinding {α : Type} (x : Action α) (drops : Store → Store) : Action α :=
  tryCatch x fun fault => do
    modifyStore drops
    throw fault

/-- Read the clock. -/
def now : Action Instant :=
  modifyGet fun s => (s.clock.read.1, { s with clock := s.clock.read.2 })

/-- Let time pass. -/
def pause (d : Duration) : Action Unit := modify fun s => { s with clock := s.clock.delay d }

def note (e : Log.Event) : Action Unit := modify fun s => { s with log := s.log ++ [e] }

def emit (e : TraceEvent) : Action Unit := modify fun s => { s with trace := s.trace ++ [e] }

end Action

end Compositor
