import Compositor.Proofs.DamageRing.Tracking

/-!
# What a buffer is told to redraw

A run changes one ring by any calls in any order, for any number of buffers, which may be destroyed
meanwhile. Beside the ring it keeps a record of the rotations for buffers. What a rotation hands out
is read off that record: the entry of a buffer is the union of what was current at the rotations
since its own last one.
-/

namespace Compositor

/-- What can happen to a ring and to the buffers that it tracks. -/
inductive RingCall where
  | add (region : Region)
  | addRect (rect : Rect)
  | addEverything
  | resize (width height : Coord)
  | rotate
  | rotateFor (id : BufferId)
  | destroy (id : BufferId)

/-- A rotation for a buffer, and the damage that was current when it began. -/
structure Rotation where
  buffer : BufferId
  damage : Region

structure RingRun where
  ring : DamageRing
  gone : List BufferId
  /-- The rotations for buffers, the newest first. -/
  rotations : List Rotation

namespace RingRun

def alive (s : RingRun) (id : BufferId) : Bool := !s.gone.contains id

/-- A destroyed buffer cannot be handed in, so no call names one. -/
def step (s : RingRun) : RingCall → RingRun
  | .add region => { s with ring := s.ring.add region }
  | .addRect rect => { s with ring := s.ring.addRect rect }
  | .addEverything => { s with ring := s.ring.addEverything }
  | .resize width height => { s with ring := s.ring.resize width height }
  | .rotate => { s with ring := s.ring.rotate }
  | .rotateFor id =>
    if s.alive id then
      { s with
        ring := (s.ring.rotateFor s.alive id).1
        rotations := ⟨id, s.ring.current⟩ :: s.rotations }
    else s
  | .destroy id => { s with gone := id :: s.gone }

/-- The run of a list of calls on a new ring; sides of zero give one without bounds. -/
def run (width height : Coord) (calls : List RingCall) : RingRun :=
  calls.foldl step ⟨DamageRing.bounded width height, [], []⟩

/-- Whether a buffer was ever rendered to. -/
def Seen (s : RingRun) (id : BufferId) : Prop := ∃ e ∈ s.rotations, e.buffer = id

instance (s : RingRun) (id : BufferId) : Decidable (s.Seen id) :=
  inferInstanceAs (Decidable (∃ e ∈ s.rotations, e.buffer = id))

/-- What was current at the rotations since the last one for a buffer. -/
def since (s : RingRun) (id : BufferId) : List Region :=
  (s.rotations.takeWhile (·.buffer ≠ id)).map (·.damage)

/-- A buffer has an entry from its first rotation on, and the entry covers what was current at the
rotations since its last one. -/
def Tracks (s : RingRun) (id : BufferId) : Prop :=
  match s.ring.missed? id with
  | none => ¬ s.Seen id
  | some missed => s.Seen id ∧ ∀ p, missed.contains p ↔ ∃ damage ∈ s.since id, damage.contains p

/-- The step that matters: the rotating buffer starts afresh, and all others have missed what was
current. -/
theorem tracks_rotateFor {s : RingRun} {id other : BufferId} (h : s.Tracks other)
    (alive : s.alive id) (alive' : s.alive other) : (s.step (.rotateFor id)).Tracks other := by
  simp only [step, alive, ↓reduceIte, Tracks, DamageRing.missed?_rotateFor]
  by_cases same : other = id
  · subst same
    simp [Seen, since, Region.empty, Region.contains]
  · have still : s.ring.missed? other = (s.ring.prune s.alive).missed? other := by
      simp [DamageRing.missed?_prune, alive']
    simp only [Tracks, still] at h
    simp only [same, ↓reduceIte]
    cases found : (s.ring.prune s.alive).missed? other with
    | none =>
      simp only [found] at h
      simpa [Seen, Ne.symm same] using h
    | some missed =>
      simp only [found] at h
      obtain ⟨seen, covers⟩ := h
      simp only [Option.map_some]
      refine ⟨?_, fun p => ?_⟩
      · obtain ⟨e, mem, key⟩ := seen
        exact ⟨e, List.mem_cons_of_mem _ mem, key⟩
      · rw [Region.contains_union, covers]
        simp [since, Ne.symm same, or_comm]

theorem tracks_step {s : RingRun} (h : ∀ id, s.alive id → s.Tracks id) (call : RingCall)
    (id : BufferId) (alive : (s.step call).alive id) : (s.step call).Tracks id := by
  have before : s.alive id := by
    cases call with
    | destroy gone =>
      simp only [RingRun.alive, step, List.contains_cons] at alive ⊢
      simp_all
    | rotateFor other =>
      simp only [step] at alive
      split at alive <;> exact alive
    | _ => exact alive
  have tracked := h id before
  cases call with
  | add | addRect | addEverything | resize | rotate =>
    simpa [Tracks, step, Seen, since] using tracked
  | rotateFor other =>
    by_cases other_alive : s.alive other
    · exact tracks_rotateFor tracked other_alive before
    · simpa [step, other_alive] using tracked
  | destroy gone => exact tracked

theorem tracks_run (width height : Coord) (calls : List RingCall) (id : BufferId)
    (alive : (run width height calls).alive id) : (run width height calls).Tracks id := by
  have start (id : BufferId) :
      (⟨DamageRing.bounded width height, [], []⟩ : RingRun).Tracks id := by
    simp [Tracks, DamageRing.bounded, DamageRing.missed?, DamageRing.unbounded, Seen]
  suffices all : ∀ s : RingRun, (∀ id, s.alive id → s.Tracks id) →
      ∀ id, (calls.foldl step s).alive id → (calls.foldl step s).Tracks id from
    all _ (fun id _ => start id) id alive
  clear alive start
  induction calls with
  | nil => exact fun _ h => h
  | cons call calls ih => exact fun s h => ih _ (tracks_step h call)

/-- A rotation for a living buffer hands out everything if the buffer is new, and otherwise exactly
what was current at the rotations since its last one, this one included. -/
theorem rotateFor_exact (width height : Coord) (calls : List RingCall) (id : BufferId)
    (alive : (run width height calls).alive id) :
    let s := run width height calls
    let after := s.ring.rotateFor s.alive id
    (¬ s.Seen id → ∀ p, after.2.contains p ↔ s.ring.everything.contains p) ∧
      (s.Seen id → ∀ p, after.2.contains p ↔
        ∃ damage ∈ s.ring.current :: s.since id, damage.contains p) ∧
      after.1.current = Region.empty ∧
      after.1.history = s.ring.current :: s.ring.history.take (DamageRing.historyLength - 1) := by
  intro s after
  have tracked : s.Tracks id := tracks_run width height calls id alive
  have still : (s.ring.prune s.alive).missed? id = s.ring.missed? id := by
    rw [DamageRing.missed?_prune]
    exact if_pos alive
  refine ⟨fun new p => ?_, fun seen p => ?_, s.ring.current_rotateFor s.alive id,
    s.ring.history_rotateFor s.alive id⟩
  · simp only [Tracks] at tracked
    simp only [after, DamageRing.damage_rotateFor, still]
    cases found : s.ring.missed? id with
    | none => exact Region.contains_ofRect
    | some missed => simp_all
  · simp only [Tracks] at tracked
    simp only [after, DamageRing.damage_rotateFor, still]
    cases found : s.ring.missed? id with
    | none => simp_all
    | some missed =>
      simp only [found] at tracked
      rw [Region.contains_union, tracked.2]
      simp [or_comm]

/-- Three buffers out of order: the last one comes back after two rotations for the first, which is
gone by then. -/
theorem rotateFor_exact_out_of_order :
    let a : Rect := ⟨0, 0, 10, 10⟩
    let b : Rect := ⟨20, 20, 10, 10⟩
    let c : Rect := ⟨40, 40, 10, 10⟩
    let s := run 100 100 [.rotateFor ⟨0⟩, .rotateFor ⟨1⟩, .rotateFor ⟨2⟩, .addRect a,
      .rotateFor ⟨0⟩, .addRect b, .rotateFor ⟨0⟩, .destroy ⟨0⟩, .addRect c]
    s.alive ⟨2⟩ ∧ ∀ p, (s.ring.rotateFor s.alive ⟨2⟩).2.contains p ↔
      a.contains p ∨ b.contains p ∨ c.contains p := by
  intro a b c s
  have alive : s.alive ⟨2⟩ := by decide
  have seen : s.Seen ⟨2⟩ := by decide
  refine ⟨alive, fun p => ?_⟩
  have exact := (rotateFor_exact 100 100 _ ⟨2⟩ alive).2.1 seen p
  have collected : s.ring.current :: s.since ⟨2⟩ = [⟨[c]⟩, ⟨[b]⟩, ⟨[a]⟩] := by decide
  refine exact.trans ?_
  rw [collected]
  simp [Region.contains]
  grind

end RingRun

end Compositor
