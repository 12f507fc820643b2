import Compositor.Proofs.DamageRing.Tracking
import Compositor.Proofs.Region.Counting

/-!
# Damage can be measured

The area of a region is computed without overflow if the region is normal and no edge of it
saturates. Every region of a bounded ring is such a region: what is added was cut to the bounds, and
the rest are unions of regions that were in the ring before. So the damage that a rotation hands out
always has an area.
-/

namespace Compositor

namespace DamageRing

variable {ring : DamageRing} {bounds : Rect}

/-- All regions that can be handed out are measurable. -/
structure Measured (ring : DamageRing) : Prop where
  current : ring.current.Measurable
  missed : ∀ entry ∈ ring.tracked, entry.missed.Measurable

theorem measured_unbounded : unbounded.Measured := ⟨Region.measurable_empty, nofun⟩

theorem exact_everything (ring : DamageRing) : ring.everything.Exact := by
  unfold everything bounds
  split
  · have := ring.width.toInt_lt
    have := ring.height.toInt_lt
    simp only [Option.getD_some, Rect.Exact, Rect.ofSize, Int32.toInt_zero]
    omega
  · decide

namespace Measured

theorem add (measured : ring.Measured) (bounded : ring.bounds = some bounds) (region : Region) :
    (ring.add region).Measured := by
  refine ⟨measured.current.union ?_, measured.missed⟩
  rw [clip, bounded]
  exact Region.exact_restrict region bounds

theorem addRect (measured : ring.Measured) (bounded : ring.bounds = some bounds) (rect : Rect) :
    (ring.addRect rect).Measured := by
  have clipped : ring.clipRect rect = rect.inter bounds := by
    rw [clipRect, bounded]
  unfold DamageRing.addRect
  rw [clipped]
  cases overlap : rect.inter bounds with
  | none => exact measured
  | some r =>
    have exact : r.Exact := Rect.exact_of_inter overlap
    exact ⟨⟨measured.current.normal.insert r, measured.current.exact.insert exact⟩,
      measured.missed⟩

theorem addEverything (measured : ring.Measured) : ring.addEverything.Measured :=
  ⟨Region.measurable_ofRect ring.exact_everything, measured.missed⟩

theorem resize (measured : ring.Measured) (width height : Coord) :
    (ring.resize width height).Measured := by
  unfold DamageRing.resize
  split
  · exact ⟨Region.measurable_ofRect (exact_everything _), measured.missed⟩
  · exact measured

theorem prune (measured : ring.Measured) (alive : BufferId → Bool) :
    (ring.prune alive).Measured :=
  ⟨measured.current, fun entry mem => measured.missed entry (List.mem_filter.1 mem).1⟩

theorem credit (measured : ring.Measured) (id : BufferId) : (ring.credit id).Measured := by
  refine ⟨measured.current, fun entry mem => ?_⟩
  obtain ⟨before, listed, rfl⟩ := List.mem_map.1 mem
  split
  · exact Region.measurable_empty
  · exact (measured.missed before listed).union measured.current.exact

theorem rotate (measured : ring.Measured) : ring.rotate.Measured :=
  ⟨Region.measurable_empty, measured.missed⟩

theorem append (measured : ring.Measured) (id : BufferId) :
    DamageRing.Measured { ring with tracked := ring.tracked ++ [⟨id, Region.empty⟩] } := by
  refine ⟨measured.current, ?_⟩
  rw [List.forall_mem_append, List.forall_mem_singleton]
  exact ⟨measured.missed, Region.measurable_empty⟩

/-- What a rotation hands out, and what it leaves in the ring. -/
theorem rotateFor (measured : ring.Measured) (alive : BufferId → Bool) (id : BufferId) :
    (ring.rotateFor alive id).1.Measured ∧ (ring.rotateFor alive id).2.Measurable := by
  have pruned := measured.prune alive
  unfold DamageRing.rotateFor
  dsimp only
  split
  next missed found =>
    obtain ⟨entry, listed, rfl⟩ := Option.map_eq_some_iff.1 found
    have mem := List.mem_of_find?_eq_some listed
    exact ⟨(pruned.credit id).rotate, (pruned.missed entry mem).union pruned.current.exact⟩
  next =>
    exact ⟨((pruned.append id).credit id).rotate,
      Region.measurable_ofRect (exact_everything _)⟩

end Measured

end DamageRing

end Compositor
