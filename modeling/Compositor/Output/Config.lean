import Compositor.Output.Change

/-!
# What an output shows

A configuration is what the committed requests add up to: applying one sets the fields in its
mask and leaves the others.
-/

namespace Compositor

structure OutputConfig extends OutputSettings where
  /-- The buffer on display. -/
  front : Option Buffer := none

namespace OutputConfig

/-- The configuration after a request, field by field. -/
def apply (c : OutputConfig) (r : OutputRequest) : OutputConfig :=
  let s := r.staged
  let pick {β : Type} (f : Field) (new old : β) : β := if s.mask.contains f then new else old
  { enabled := pick .enabled s.enabled c.enabled
    mode := pick .mode s.mode c.mode
    scale := pick .scale s.scale c.scale
    transform := pick .transform s.transform c.transform
    adaptiveSync := pick .adaptiveSync s.adaptiveSync c.adaptiveSync
    renderFormat := pick .renderFormat s.renderFormat c.renderFormat
    subpixel := pick .subpixel s.subpixel c.subpixel
    front := pick .buffer s.buffer c.front
    gammaSize := pick .gamma s.gammaSize c.gammaSize }

/-- The handles that a configuration holds. -/
def holding (c : OutputConfig) : Holding := ⟨(c.front.map (·.id)).toList, []⟩

/-- Apply a request; the configuration takes a handle of its own of the new front buffer. -/
def update (c : OutputConfig) (s : Store) (r : OutputRequest) : OutputConfig × Store :=
  (c.apply r, s.exchange c.holding (c.apply r).holding)

end OutputConfig

end Compositor
