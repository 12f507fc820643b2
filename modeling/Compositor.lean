import Compositor.Frame
import Compositor.Text.Hex
import Compositor.Text.Json.Parser
import Compositor.Trace.Line
import Compositor.Trace.Timeline
import Compositor.Proofs.DamageRing.Bounds
import Compositor.Proofs.Region.Recipe
import Compositor.Proofs.Frame.Scene
import Compositor.Proofs.Store.Destruction
import Compositor.Proofs.Store.Locks
import Compositor.Proofs.Frame.Failure
import Compositor.Proofs.Draw.Unscaled
import Compositor.Proofs.Output.Folding
import Compositor.Proofs.Output.Commits
import Compositor.Proofs.Output.Recording
import Compositor.Proofs.Output.References
import Compositor.Proofs.Geometry.Orientation
import Compositor.Proofs.Draw.Whole
import Compositor.Proofs.Frame.Locks
import Compositor.Proofs.Draw.Studio
import Compositor.Proofs.Draw.Reads
import Compositor.Proofs.Pixel.Quantize
import Compositor.Proofs.Pixel.Premultiplied
import Compositor.Proofs.Draw.Premultiplied
import Compositor.Proofs.Region.Counting
import Compositor.Proofs.Session.Reports
import Compositor.Proofs.Frame.Reports
import Compositor.Proofs.Trace.Tracks
import Compositor.Proofs.Frame.Phases
import Compositor.Proofs.DamageRing.Areas
import Compositor.Proofs.Frame.Summaries
import Compositor.Proofs.Region.Equality
import Compositor.Proofs.Region.Moving
import Compositor.Proofs.Region.BoundingBox
import Compositor.Proofs.DamageRing.Keeping
import Compositor.Proofs.Draw.Once
import Compositor.Proofs.Draw.Sampling
import Compositor.Proofs.Draw.Sources
import Compositor.Proofs.Draw.Stretched
import Compositor.Proofs.Draw.Checked
import Compositor.Proofs.Geometry.Images
import Compositor.Proofs.Geometry.Coverage
import Compositor.Proofs.Frame.ReportedDamage
import Compositor.Proofs.Draw.Skipping
import Compositor.Proofs.DamageRing.Lifetimes
import Compositor.Proofs.Frame.Breaks
import Compositor.Proofs.Trace.Placement
