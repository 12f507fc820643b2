import Compositor.Log
import Compositor.Output.Config

/-!
# A display that is not there

A headless display keeps a configuration and shows nothing. It rejects a request only if the size of
its buffer is not that of the mode it would have; rejecting is an answer and no error. All layers
are accepted, or none, as the display was set up.
-/

namespace Compositor

structure HeadlessDisplay where
  output : OutputId
  acceptsLayers : Bool
  config : OutputConfig
  /-- The number of accepted commits. -/
  commits : Nat

namespace HeadlessDisplay

def new (output : OutputId) (acceptsLayers : Bool) : HeadlessDisplay :=
  ⟨output, acceptsLayers, {}, 0⟩

/-- The mode that the display would have after a request. -/
def pendingMode (d : HeadlessDisplay) (r : OutputRequest) : Option Mode :=
  if r.staged.mask.contains .mode then r.staged.mode else d.config.mode

/-- The buffer and the mode of a request, if they do not have the same size. -/
def mismatch? (d : HeadlessDisplay) (r : OutputRequest) : Option (Buffer × Mode) :=
  match r.staged.buffer, d.pendingMode r with
  | some b, some m =>
    if (b.width.toNat : Int) = m.width.toInt ∧ (b.height.toNat : Int) = m.height.toInt then none
    else some (b, m)
  | _, _ => none

/-- An answer of the display, with what it did to the shared layers and what it logged. -/
structure Verdict where
  accepted : Bool
  store : Store
  log : List Log.Event

/-- The answer to a test, and the display after it. -/
structure Trial extends Verdict where
  display : HeadlessDisplay

/-- Whether the display would accept a request. It marks the layers that the request names. -/
def test (d : HeadlessDisplay) (s : Store) (r : OutputRequest) : Trial :=
  let s :=
    match r.staged.layers with
    | some set => s.mapLayers set (·.map fun layer => { layer with accepted := d.acceptsLayers })
    | none => s
  match d.mismatch? r with
  | none => ⟨⟨true, s, []⟩, d⟩
  | some (b, m) =>
    ⟨⟨false, s, [⟨.debug, "buffer size does not match mode",
      [("output", s!"{d.output.number}"), ("buffer_width", s!"{b.width}"),
        ("buffer_height", s!"{b.height}"), ("mode_width", s!"{m.width}"),
        ("mode_height", s!"{m.height}")]⟩]⟩, d⟩

/-- Commit a request, and give up what it holds. The display goes on as the test leaves it. -/
def commit (d : HeadlessDisplay) (s : Store) (r : OutputRequest) : HeadlessDisplay × Verdict :=
  let tested := d.test s r
  let d := tested.display
  let output := ("output", s!"{d.output.number}")
  if tested.accepted then
    let (config, s) := d.config.update tested.store r
    let d := { d with config, commits := d.commits + 1 }
    let event : Log.Event := ⟨.debug, "headless commit",
      [output, ("commits", s!"{d.commits}"), ("fields", s!"{r.staged.mask.bits}")]⟩
    (d, ⟨true, r.discard s, tested.log ++ [event]⟩)
  else
    (d, ⟨false, r.discard tested.store,
      tested.log ++ [⟨.warn, "headless commit rejected", [output]⟩]⟩)

end HeadlessDisplay

end Compositor
