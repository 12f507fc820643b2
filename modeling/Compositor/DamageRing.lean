import Compositor.Buffer.Basic
import Compositor.Geometry.Region
import Compositor.Log

/-!
# Damage over frames

A damage ring remembers which points changed. `current` collects the frame in progress; a rotation
moves it into a history of `historyLength` frames. What a reused buffer lacks is asked in two ways:
by age, from the history, or by buffer, from one entry for every buffer that was rendered to. An
entry collects the current damage of every rotation that other buffers make. The ring holds numbers
of buffers, not handles, so it is told which buffers are alive.
-/

namespace Compositor

/-- The damage that a buffer has missed. -/
structure Tracked where
  id : BufferId
  missed : Region
deriving DecidableEq, Repr

/-- Sides of zero stand for a ring without bounds. -/
structure DamageRing where
  width : Coord
  height : Coord
  current : Region
  /-- The frames before, the newest first. -/
  history : List Region
  tracked : List Tracked
deriving DecidableEq, Repr

namespace DamageRing

/-- The number of past frames that are kept. -/
def historyLength : Nat := 2

def unbounded : DamageRing := ⟨0, 0, Region.empty, List.replicate historyLength Region.empty, []⟩

/-- Sides that are not both positive give a ring without bounds. -/
def normalSides (width height : Coord) : Coord × Coord :=
  if width ≤ 0 ∨ height ≤ 0 then (0, 0) else (width, height)

def bounded (width height : Coord) : DamageRing :=
  let (width, height) := normalSides width height
  { unbounded with width, height }

def bounds (ring : DamageRing) : Option Rect :=
  if 0 < ring.width ∧ 0 < ring.height then some (Rect.ofSize ring.width ring.height) else none

/-- Everything that can be damaged. -/
def everything (ring : DamageRing) : Rect := ring.bounds.getD Rect.everything

/-- The part of a region that lies in the bounds. -/
def clip (ring : DamageRing) (region : Region) : Region :=
  match ring.bounds with
  | some bounds => region.restrict bounds
  | none => region

/-- The part of a rectangle that lies in the bounds, if there is any. -/
def clipRect (ring : DamageRing) (rect : Rect) : Option Rect :=
  match ring.bounds with
  | some bounds => rect.inter bounds
  | none => if rect.isEmpty then none else some rect

/-- Whether adding a region damages anything. -/
def accepts (ring : DamageRing) (region : Region) : Bool := !(ring.clip region).isEmpty

def add (ring : DamageRing) (region : Region) : DamageRing :=
  { ring with current := ring.current.union (ring.clip region) }

/-- Whether adding a rectangle damages anything. -/
def acceptsRect (ring : DamageRing) (rect : Rect) : Bool := (ring.clipRect rect).isSome

def addRect (ring : DamageRing) (rect : Rect) : DamageRing :=
  match ring.clipRect rect with
  | some r => { ring with current := ring.current.insert r }
  | none => ring

/-- Damage everything, and forget how the damage so far was cut up. -/
def addEverything (ring : DamageRing) : DamageRing :=
  { ring with current := Region.ofRect ring.everything }

/-- Whether new bounds differ from the old ones. -/
def changesSides (ring : DamageRing) (width height : Coord) : Bool :=
  (ring.width, ring.height) ≠ normalSides width height

/-- New bounds damage everything inside them. -/
def resize (ring : DamageRing) (width height : Coord) : DamageRing :=
  if ring.changesSides width height then
    let (width, height) := normalSides width height
    { ring with width, height }.addEverything
  else ring

/-- What a change of bounds logs. -/
def resizeEvents (ring : DamageRing) (width height : Coord) : List Log.Event :=
  if ring.changesSides width height then
    let (width, height) := normalSides width height
    [⟨.debug, "damage ring bounds changed", [("width", s!"{width}"), ("height", s!"{height}")]⟩]
  else []

/-- End the frame in progress. -/
def rotate (ring : DamageRing) : DamageRing :=
  { ring with
    current := Region.empty
    history := (ring.current :: ring.history).take historyLength }

/-- What a buffer lacks that was rendered `age` frames ago: everything, if the age is unknown or
goes beyond the history. -/
def damageOfAge (ring : DamageRing) (age : Nat) : Region :=
  if 1 ≤ age ∧ age ≤ historyLength then
    (ring.history.take age).foldl Region.union ring.current
  else Region.ofRect ring.everything

/-- Forget the buffers that are gone. -/
def prune (ring : DamageRing) (alive : BufferId → Bool) : DamageRing :=
  { ring with tracked := ring.tracked.filter fun entry => alive entry.id }

/-- The number of buffers that are tracked and alive. -/
def trackedCount (ring : DamageRing) (alive : BufferId → Bool) : Nat :=
  (ring.prune alive).tracked.length

/-- What a buffer has missed, if it is tracked. -/
def missed? (ring : DamageRing) (id : BufferId) : Option Region :=
  (ring.tracked.find? (·.id == id)).map (·.missed)

/-- Note that the current damage reaches one buffer only: its entry starts afresh, and all others
have missed it. -/
def credit (ring : DamageRing) (id : BufferId) : DamageRing :=
  { ring with
    tracked := ring.tracked.map fun entry =>
      if entry.id = id then { entry with missed := Region.empty }
      else { entry with missed := entry.missed.union ring.current } }

/-- End the frame in progress with a buffer, and say what has to be drawn into it: what it missed
and the current damage, or everything for a buffer that is new. -/
def rotateFor (ring : DamageRing) (alive : BufferId → Bool) (id : BufferId) :
    DamageRing × Region :=
  let ring := ring.prune alive
  match ring.missed? id with
  | some missed => ((ring.credit id).rotate, missed.union ring.current)
  | none =>
    let ring : DamageRing := { ring with tracked := ring.tracked ++ [⟨id, Region.empty⟩] }
    ((ring.credit id).rotate, Region.ofRect ring.everything)

end DamageRing

end Compositor
