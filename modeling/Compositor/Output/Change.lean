import Compositor.Buffer.Store
import Compositor.Geometry.Region
import Compositor.Geometry.Transform
import Compositor.Output.Field

/-!
# Staged changes of an output

Changes are staged one after the other: each sets one field and its bit in the mask. A draft
collects them, and a request is a finished draft, to be committed as one. Both own handles of the
buffer and the layers that they name; `holding` says which, and the store is told whenever they
change.
-/

namespace Compositor

structure OutputId where
  number : UInt32
deriving DecidableEq, Repr, Inhabited

def OutputId.describe (id : OutputId) : String := s!"OutputId({id.number})"

/-- Where a mode comes from. -/
inductive ModeKind where
  /-- A mode of the display's own list. -/
  | fixed (preferred : Bool)
  | custom
deriving DecidableEq, Repr

structure Mode where
  kind : ModeKind
  width : Coord
  height : Coord
  refresh : Coord
deriving DecidableEq, Repr

/-- The order of a pixel's colour stripes. -/
inductive Subpixel where
  | unknown
  | none
  | horizontalRgb
  | horizontalBgr
  | verticalRgb
  | verticalBgr
deriving DecidableEq, Repr

namespace Subpixel

def all : List Subpixel := [unknown, none, horizontalRgb, horizontalBgr, verticalRgb, verticalBgr]

def name : Subpixel → String
  | unknown => "Unknown"
  | none => "None"
  | horizontalRgb => "HorizontalRgb"
  | horizontalBgr => "HorizontalBgr"
  | verticalRgb => "VerticalRgb"
  | verticalBgr => "VerticalBgr"

def ofName? (s : String) : Option Subpixel := all.find? (·.name == s)

theorem ofName?_name (order : Subpixel) : ofName? order.name = some order := by
  cases order <;> decide

end Subpixel

/-- What the allocator answers when it is asked for so many bytes. It grants no more than can be
addressed; everything else is up to the machine and the moment. -/
structure Memory where
  grants : Nat → Bool
  le_capacity : ∀ {bytes}, grants bytes = true → bytes ≤ Store.capacity

namespace Memory

/-- Whether so many bytes can be had. For none the allocator is not asked. -/
def reserves (memory : Memory) (bytes : Nat) : Bool := bytes = 0 || memory.grants bytes

theorem le_capacity_of_reserves {memory : Memory} {bytes : Nat}
    (reserved : memory.reserves bytes = true) : bytes ≤ Store.capacity := by
  rcases Bool.or_eq_true_iff.1 reserved with none | granted
  · exact Nat.le_trans (Nat.le_of_eq (of_decide_eq_true none)) (Nat.zero_le _)
  · exact memory.le_capacity granted

/-- Memory with so many bytes free. -/
def ofSize (free : Nat) (addressed : free ≤ Store.capacity) : Memory where
  grants bytes := bytes ≤ free
  le_capacity granted := Nat.le_trans (of_decide_eq_true granted) addressed

/-- Where nothing is said of the memory, there are four gibibytes. -/
instance : Inhabited Memory := ⟨ofSize UInt32.size (by decide)⟩

end Memory

/-- Why a gamma table is refused. -/
inductive GammaError where
  /-- There is no room for a table of this size. -/
  | allocation (size : Nat)
  /-- The planes do not all have the size of the table. -/
  | planeLength
deriving DecidableEq, Repr

def GammaError.message : GammaError → String
  | allocation size => s!"failed to allocate a gamma table of {size} entries per channel"
  | planeLength => "gamma planes must each hold exactly ramp_size entries"

/-- There is no room for a copy of staged changes. -/
inductive CopyError where
  | allocation
deriving DecidableEq, Repr

def CopyError.message : CopyError → String
  | allocation => "failed to allocate an output state copy"

/-- One staged change. -/
inductive Change where
  | enabled (on : Bool)
  | mode (width height refresh : Coord) (preferred : Bool)
  | customMode (width height refresh : Coord)
  | scale (factor : Float32)
  | transform (transform : Transform)
  | adaptiveSync (on : Bool)
  | renderFormat (format : PixelFormat)
  | subpixel (order : Subpixel)
  | buffer (buffer : Option Buffer)
  | damage (region : Region)
  | layers (set : LayerSetId)
  /-- A table of `size` samples for each channel; size zero goes back to no table. -/
  | gamma (size : Nat) (red green blue : List UInt16)

/-- What an output is set to, its picture apart. -/
structure OutputSettings where
  enabled : Bool := false
  mode : Option Mode := none
  scale : Float32 := 1.0
  transform : Transform := Transform.normal
  adaptiveSync : Bool := false
  renderFormat : PixelFormat := .xrgb8888
  subpixel : Subpixel := .unknown
  gammaSize : Nat := 0

/-- What has been staged. A field whose bit is not in the mask has its default. -/
structure Staged extends OutputSettings where
  mask : FieldMask := FieldMask.empty
  /-- Whether the display may interrupt its picture to apply the changes. -/
  reconfigures : Bool := false
  buffer : Option Buffer := none
  damage : Region := Region.empty
  gamma : List UInt16 := []
  layers : Option LayerSetId := none

namespace Staged

private def touch (s : Staged) (f : Field) : Staged := { s with mask := s.mask.insert f }

/-- The planes of a gamma table one after the other. The number of samples has to fit a machine
word, and their memory, two bytes for each, is reserved before the planes are looked at. -/
def gammaTable (memory : Memory) (size : Nat) (red green blue : List UInt16) :
    Except GammaError (List UInt16) :=
  if UInt64.size ≤ 3 * size then .error (.allocation size)
  else if !memory.reserves (2 * (3 * size)) then .error (.allocation size)
  else if red.length ≠ size ∨ green.length ≠ size ∨ blue.length ≠ size then .error .planeLength
  else .ok (red ++ green ++ blue)

/-- Stage one change. Only a gamma table can be refused. -/
def stage (memory : Memory) : Change → EStateM GammaError Staged Unit
  | .enabled on => modify fun s => { s.touch .enabled with enabled := on, reconfigures := true }
  | .mode width height refresh preferred =>
    modify fun s => { s.touch .mode with
      mode := some ⟨.fixed preferred, width, height, refresh⟩, reconfigures := true }
  | .customMode width height refresh =>
    modify fun s => { s.touch .mode with
      mode := some ⟨.custom, width, height, refresh⟩, reconfigures := true }
  | .scale factor => modify fun s => { s.touch .scale with scale := factor }
  | .transform transform => modify fun s => { s.touch .transform with transform }
  | .adaptiveSync on => modify fun s => { s.touch .adaptiveSync with adaptiveSync := on }
  | .renderFormat format => modify fun s => { s.touch .renderFormat with renderFormat := format }
  | .subpixel order => modify fun s => { s.touch .subpixel with subpixel := order }
  | .buffer buffer => modify fun s => { s.touch .buffer with buffer }
  | .damage region => modify fun s => { s.touch .damage with damage := region }
  | .layers set => modify fun s => { s.touch .layers with layers := some set }
  | .gamma size red green blue => do
    let gamma ← if size = 0 then pure [] else liftExcept (gammaTable memory size red green blue)
    modify fun s => { s with gamma }
    modify fun s => { s.touch .gamma with gammaSize := size }

/-- The staged changes after one more, or why it is refused. -/
def set (s : Staged) (c : Change) (memory : Memory := default) : Except GammaError Staged :=
  match stage memory c s with
  | .ok _ s => .ok s
  | .error cause _ => .error cause

/-- The changes once more, with a gamma table in memory of its own. -/
def copy (s : Staged) (memory : Memory) : Except CopyError Staged :=
  if memory.reserves (2 * s.gamma.length) then .ok s else .error .allocation

/-- The handles that staged changes hold. -/
def holding (s : Staged) : Holding :=
  ⟨(s.buffer.map (·.id)).toList, s.layers.toList⟩

end Staged

/-- Changes that are being collected. -/
structure OutputDraft where
  staged : Staged := {}

/-- Changes that are committed as one. -/
structure OutputRequest where
  staged : Staged

namespace OutputDraft

def new : OutputDraft := {}

/-- Stage one change. What comes back is the draft and the store as they are then, also if the
change is refused; the store learns which handles the draft took and gave up. -/
def attempt (d : OutputDraft) (s : Store) (c : Change) (memory : Memory) :
    Except GammaError Unit × OutputDraft × Store :=
  match Staged.stage memory c d.staged with
  | .ok _ staged => (.ok (), ⟨staged⟩, s.exchange d.staged.holding staged.holding)
  | .error cause staged => (.error cause, ⟨staged⟩, s)

/-- The draft and the store after one more change, or why it is refused. -/
def change (d : OutputDraft) (s : Store) (c : Change) (memory : Memory := default) :
    Except GammaError (OutputDraft × Store) :=
  match d.attempt s c memory with
  | (.ok _, changed) => .ok changed
  | (.error cause, _) => .error cause

/-- Forget all changes. -/
def clear (d : OutputDraft) (s : Store) : OutputDraft × Store :=
  (new, s.exchange d.staged.holding new.staged.holding)

/-- Take over all changes of another draft. -/
def replace (d : OutputDraft) (s : Store) (source : OutputDraft) : OutputDraft × Store :=
  (source, s.exchange d.staged.holding source.staged.holding)

/-- Take over all changes of another draft, if there is memory for them. -/
def copyFrom (d : OutputDraft) (s : Store) (source : OutputDraft) (memory : Memory) :
    Except CopyError Unit × OutputDraft × Store :=
  match source.staged.copy memory with
  | .ok staged => (.ok (), d.replace s ⟨staged⟩)
  | .error cause => (.error cause, d, s)

/-- A second draft with the same changes. -/
def clone (d : OutputDraft) (s : Store) : OutputDraft × Store :=
  (d, s.acquire d.staged.holding)

/-- A second draft with the same changes, if there is memory for it. -/
def tryClone (d : OutputDraft) (s : Store) (memory : Memory) :
    Except CopyError (OutputDraft × Store) := do
  let staged ← d.staged.copy memory
  return clone ⟨staged⟩ s

def discard (d : OutputDraft) (s : Store) : Store := s.dispose d.staged.holding

/-- The changes as one request; the handles move along. -/
def freeze (d : OutputDraft) : OutputRequest := ⟨d.staged⟩

end OutputDraft

namespace OutputRequest

/-- The request that shows a buffer and says which part of it changed. It takes over a handle of the
buffer. -/
def showing (buffer : Buffer) (damage : Region) : OutputRequest where
  staged :=
    { mask := (FieldMask.empty.insert .buffer).insert .damage, buffer := some buffer, damage }

/-- Setting the buffer and then the damage comes to the same. -/
theorem set_buffer_damage (buffer : Buffer) (damage : Region) :
    (do
      let s ← Staged.set {} (.buffer (some buffer))
      s.set (.damage damage)) = .ok (showing buffer damage).staged := rfl

/-- Take another handle of everything that a request holds. -/
def retain (r : OutputRequest) (s : Store) : Store := s.acquire r.staged.holding

/-- A second request with the same changes. -/
def clone (r : OutputRequest) (s : Store) : OutputRequest × Store := (r, r.retain s)

/-- A second request with the same changes, if there is memory for it. -/
def tryClone (r : OutputRequest) (s : Store) (memory : Memory) :
    Except CopyError (OutputRequest × Store) := do
  let staged ← r.staged.copy memory
  return clone ⟨staged⟩ s

def discard (r : OutputRequest) (s : Store) : Store := s.dispose r.staged.holding

/-- Collect further changes; the handles move along. -/
def reopen (r : OutputRequest) : OutputDraft := ⟨r.staged⟩

end OutputRequest

end Compositor
