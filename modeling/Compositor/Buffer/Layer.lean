import Compositor.Buffer.Basic
import Compositor.Geometry.Affine

/-!
# Layers

A layer asks a display to show part of a buffer on a plane of its own. Layers come in sets that
several owners share; the display answers by marking the layers that it accepts.
-/

namespace Compositor

structure Layer where
  /-- The plane that is asked for. -/
  plane : UInt32
  buffer : Option Buffer
  source : Box Float
  target : Rect
  accepted : Bool

/-- A layer as it is made, not yet accepted. -/
def Layer.request (plane : UInt32) (buffer : Option Buffer) (source : Box Float) (target : Rect) :
    Layer :=
  ⟨plane, buffer, source, target, false⟩

/-- The place of a layer set in the order of creation. -/
structure LayerSetId where
  index : Nat
deriving DecidableEq, Repr, Inhabited

/-- Layers with the number of owners that share them. -/
structure LayerSet where
  layers : List Layer
  owners : Nat

/-- The handles that the layers of a set hold. -/
def LayerSet.held (set : LayerSet) : List BufferId :=
  set.layers.filterMap fun layer => layer.buffer.map (·.id)

end Compositor
