import Compositor.Proofs.DamageRing.History

/-!
# Damage and the bounds

What is added is cut to the bounds, and new bounds replace what is current, so current damage never
leaves the bounds. What was recorded is not cut again: a frame keeps the damage that lay in the
bounds of its time. After the bounds shrank, what an older buffer lacks can therefore reach beyond
them; but every point that does was damaged in one of the frames that the answer accounts for, and
lay in the bounds of that frame.
-/

namespace Compositor

/-- Every point lies in the bounds, if there are any. -/
def Region.Inside (region : Region) (bounds : Option Rect) : Prop :=
  ∀ r ∈ bounds, ∀ p, region.contains p → r.contains p

namespace DamageRing

variable {ring ring' : DamageRing}

theorem bounds_congr (sides : ring'.width = ring.width ∧ ring'.height = ring.height) :
    ring'.bounds = ring.bounds := by
  rw [bounds, sides.1, sides.2, bounds]

theorem inside_everything (ring : DamageRing) :
    (Region.ofRect ring.everything).Inside ring.bounds := by
  intro r bounds p there
  rw [everything, Option.mem_def.1 bounds] at there
  exact Region.contains_ofRect.1 there

/-- What is added is cut to the bounds first. -/
theorem inside_of_added (inside : ring.current.Inside ring.bounds)
    (sides : ring'.width = ring.width ∧ ring'.height = ring.height)
    (added : ∀ p, ring'.current.contains p → ring.current.contains p ∨
      ∀ r ∈ ring.bounds, r.contains p) : ring'.current.Inside ring'.bounds := by
  intro r bounds p there
  rw [bounds_congr sides] at bounds
  rcases added p there with before | now
  · exact inside r bounds p before
  · exact now r bounds

end DamageRing

namespace Chronicle

open DamageRing

variable {c : Chronicle}

/-- The current damage lies in the bounds, and that of each frame in the bounds of its time. -/
structure Cut (c : Chronicle) : Prop where
  current : c.ring.current.Inside c.ring.bounds
  frames : ∀ frame ∈ c.frames, frame.damage.Inside frame.bounds

/-- A frame that is ended takes the damage with it. -/
theorem Cut.turn {c' : Chronicle} (cut : c.Cut) (buffer : Option BufferId)
    (current : c'.ring.current = Region.empty)
    (frames : c'.frames = ⟨c.ring.current, c.ring.bounds, buffer⟩ :: c.frames) : c'.Cut where
  current r _ p there := by
    rw [current, Region.contains_empty] at there
    cases there
  frames := by
    rw [frames, List.forall_mem_cons]
    exact ⟨cut.current, cut.frames⟩

theorem Cut.step (cut : c.Cut) (call : RingCall) : (c.step call).Cut := by
  cases call with
  | add region =>
    refine ⟨inside_of_added cut.current (sides_add c.ring region) fun p there => ?_, cut.frames⟩
    exact ((c.ring.contains_current_add region p).1 there).imp id (·.2)
  | addRect rect =>
    refine ⟨inside_of_added cut.current (sides_addRect c.ring rect) fun p there => ?_, cut.frames⟩
    exact ((c.ring.contains_current_addRect rect p).1 there).imp id (·.2)
  | addEverything => exact ⟨inside_everything c.ring, cut.frames⟩
  | resize width height =>
    refine ⟨?_, cut.frames⟩
    change (c.ring.resize width height).current.Inside (c.ring.resize width height).bounds
    unfold resize
    split
    · exact inside_everything _
    · exact cut.current
  | rotate => exact cut.turn none rfl rfl
  | rotateFor id =>
    by_cases alive : c.alive id
    · refine cut.turn (some id) ?_ ?_
      · simp only [Chronicle.step, RingRun.step, alive, ↓reduceIte]
        exact current_rotateFor _ _ _
      · simp only [Chronicle.step, RingRun.ends?, alive, ↓reduceIte]
        rfl
    · simp only [Chronicle.step, RingRun.step, RingRun.ends?, alive]
      exact cut
  | destroy id => exact ⟨cut.current, cut.frames⟩

theorem cut_run (width height : Coord) (calls : List RingCall) : (run width height calls).Cut := by
  refine run_induction (P := Cut) width height ⟨fun r _ p there => ?_, fun frame mem => ?_⟩
    (fun _ call cut => cut.step call) calls
  · cases there
  · cases mem

/-! ## Frames that a buffer has missed -/

/-- The frames that were ended for other buffers since the last one for a buffer. -/
def framesSince (c : Chronicle) (id : BufferId) : List EndedFrame :=
  (c.frames.filter (·.buffer.isSome)).takeWhile (·.buffer ≠ some id)

/-- The rotations of a run are its frames that were ended for a buffer. -/
def Lists (c : Chronicle) : Prop :=
  c.rotations = c.frames.filterMap fun frame => frame.buffer.map (⟨·, frame.damage⟩)

theorem lists_run (width height : Coord) (calls : List RingCall) :
    (run width height calls).Lists := by
  refine run_induction (P := Lists) width height rfl (fun c call lists => ?_) calls
  cases call with
  | rotateFor id =>
    by_cases alive : c.alive id
    · simp only [Lists, Chronicle.step, RingRun.step, RingRun.ends?, alive, ↓reduceIte]
      exact congrArg (⟨id, c.ring.current⟩ :: ·) lists
    · simp only [Lists, Chronicle.step, RingRun.step, RingRun.ends?, alive]
      exact lists
  | _ => exact lists

theorem Lists.since_eq (lists : c.Lists) (id : BufferId) :
    c.since id = (c.framesSince id).map (·.damage) := by
  rw [RingRun.since, lists, framesSince]
  clear lists
  induction c.frames with
  | nil => rfl
  | cons frame frames ih =>
    cases buffer : frame.buffer with
    | none => simpa [buffer] using ih
    | some other =>
      by_cases same : other = id
      · simp [buffer, same]
      · simpa [buffer, same] using ih

/-! ## What is handed out -/

/-- The point was damaged in one of the frames, and lay in the bounds of that time. -/
def Damaged (frames : List EndedFrame) (p : Point) : Prop :=
  ∃ frame ∈ frames, frame.damage.contains p ∧ ∀ r ∈ frame.bounds, r.contains p

theorem Cut.damaged (cut : c.Cut) {frame : EndedFrame} {frames : List EndedFrame} {p : Point}
    (known : frame ∈ c.frames) (mem : frame ∈ frames) (there : frame.damage.contains p) :
    Damaged frames p :=
  ⟨frame, mem, there, fun r bounds => cut.frames frame known r bounds p there⟩

theorem Cut.contains_damageOfAge (cut : c.Cut) (remembers : c.Remembers) {r : Rect}
    (bounded : c.ring.bounds = some r) {age : Nat} {p : Point}
    (there : (c.ring.damageOfAge age).contains p) :
    r.contains p ∨ (1 ≤ age ∧ age ≤ historyLength) ∧ Damaged (c.frames.take age) p := by
  rw [remembers.contains_damageOfAge] at there
  split at there
  · rename_i within
    obtain now | ⟨frame, mem, before⟩ := there
    · exact .inl (cut.current r bounded p now)
    · exact .inr ⟨within, cut.damaged (List.mem_of_mem_take mem) mem before⟩
  · rw [everything, bounded] at there
    exact .inl there

theorem Cut.contains_rotateFor (cut : c.Cut) (lists : c.Lists) {r : Rect}
    (bounded : c.ring.bounds = some r) {id : BufferId} (alive : c.alive id)
    (tracks : c.Tracks id) {p : Point}
    (there : (c.ring.rotateFor c.alive id).2.contains p) :
    r.contains p ∨ Damaged (c.framesSince id) p := by
  rw [damage_rotateFor, missed?_prune, if_pos alive] at there
  unfold RingRun.Tracks at tracks
  cases found : c.ring.missed? id with
  | none =>
    rw [found] at there
    exact .inl (inside_everything c.ring r bounded p there)
  | some missed =>
    rw [found] at there tracks
    rcases Region.contains_union.1 there with before | now
    · obtain ⟨damage, since, there⟩ := (tracks.2 p).1 before
      rw [lists.since_eq] at since
      obtain ⟨frame, mem, rfl⟩ := List.mem_map.1 since
      have known := (List.mem_filter.1 ((List.takeWhile_sublist _).mem mem)).1
      exact .inr (cut.damaged known mem there)
    · exact .inl (cut.current r bounded p now)

/-- The current damage lies in the bounds. The damage of an age, and what is handed out for a living
buffer, lie in the bounds too, but for points that were damaged in one of the frames that they
account for and lay in the bounds of that time. -/
theorem damage_within_bounds_of_frames (width height : Coord) (calls : List RingCall) {r : Rect}
    (bounded : (run width height calls).ring.bounds = some r) :
    let c := run width height calls
    (∀ p, c.ring.current.contains p → r.contains p) ∧
      (∀ age p, (c.ring.damageOfAge age).contains p →
        r.contains p ∨ (1 ≤ age ∧ age ≤ historyLength) ∧ Damaged (c.frames.take age) p) ∧
      ∀ id p, c.alive id → (c.ring.rotateFor c.alive id).2.contains p →
        r.contains p ∨ Damaged (c.framesSince id) p := by
  intro c
  have cut : c.Cut := cut_run width height calls
  refine ⟨cut.current r bounded, fun age p there => ?_, fun id p alive there => ?_⟩
  · exact cut.contains_damageOfAge (remembers_run width height calls) bounded there
  · have tracks : c.Tracks id := by
      simp only [c, toRingRun_run] at alive ⊢
      exact RingRun.tracks_run width height calls id alive
    exact cut.contains_rotateFor (lists_run width height calls) bounded alive tracks there

/-- After the ring shrank and a frame was ended since, the damage of the last frame is inside. -/
theorem damage_of_shrunk_ring_is_inside :
    let calls : List RingCall :=
      [.addEverything, .rotate, .resize 2 2, .rotate, .addRect ⟨1, 1, 9, 9⟩]
    let c := run 4 4 calls
    c.ring.bounds = some (Rect.ofSize 2 2) ∧
      ∀ p, (c.ring.damageOfAge 1).contains p → (Rect.ofSize 2 2).contains p := by
  intro calls c
  have bounded : c.ring.bounds = some (Rect.ofSize 2 2) := by decide
  refine ⟨bounded, fun p there => ?_⟩
  obtain inside | ⟨-, frame, mem, -, inside⟩ :=
    (damage_within_bounds_of_frames 4 4 calls bounded).2.1 1 p there
  · exact inside
  · have newest : frame.bounds = some (Rect.ofSize 2 2) := by
      obtain rfl := List.mem_singleton.1 mem
      rfl
    exact inside _ newest

/-- When the ring shrinks, damage of frames before still reaches beyond the new bounds, by age and
for a buffer. -/
theorem shrinking_keeps_old_damage :
    let s := RingRun.run 4 4 [.rotateFor ⟨0⟩, .addEverything, .rotateFor ⟨1⟩, .resize 2 2]
    s.ring.bounds = some (Rect.ofSize 2 2) ∧ ¬ (Rect.ofSize 2 2).contains ⟨3, 3⟩ ∧
      (s.ring.damageOfAge 1).contains ⟨3, 3⟩ ∧
      (s.ring.rotateFor s.alive ⟨0⟩).2.contains ⟨3, 3⟩ := by
  decide

end Chronicle

end Compositor
