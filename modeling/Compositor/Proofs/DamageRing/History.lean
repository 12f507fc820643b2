import Compositor.Proofs.DamageRing.Run

/-!
# What the history remembers

A chronicle is a run that also keeps every frame that was ended in it, with a buffer or without: the
damage that was current then, and the bounds of that time. The history of the ring is the newest
frames of the chronicle, filled up with empty ones. So the damage of an age is exactly what is
current now or was current when one of so many frames ended, and whatever leaves the bounds was
damaged in a frame that had other bounds.
-/

namespace Compositor

/-- A frame that was ended. -/
structure EndedFrame where
  damage : Region
  /-- The bounds of the ring at that time. -/
  bounds : Option Rect
  /-- The buffer that it was ended for, if the ring was told. -/
  buffer : Option BufferId

/-- The frame that a call ends, if it ends one. -/
def RingRun.ends? (s : RingRun) : RingCall → Option EndedFrame
  | .rotate => some ⟨s.ring.current, s.ring.bounds, none⟩
  | .rotateFor id => if s.alive id then some ⟨s.ring.current, s.ring.bounds, some id⟩ else none
  | .add _ | .addRect _ | .addEverything | .resize _ _ | .destroy _ => none

/-- A run with the frames that were ended in it, the newest first. -/
structure Chronicle extends RingRun where
  frames : List EndedFrame

namespace Region

theorem contains_foldl_union {region : Region} {others : List Region} {p : Point} :
    (others.foldl union region).contains p ↔
      region.contains p ∨ ∃ other ∈ others, other.contains p := by
  induction others generalizing region with
  | nil => simp
  | cons other others ih =>
    rw [List.foldl_cons, ih, contains_union]
    simp only [List.mem_cons, exists_eq_or_imp, or_assoc]

end Region

namespace Chronicle

open DamageRing

variable {c : Chronicle}

def step (c : Chronicle) (call : RingCall) : Chronicle where
  toRingRun := c.toRingRun.step call
  frames := (c.ends? call).toList ++ c.frames

/-- The chronicle of a list of calls on a new ring; sides of zero give one without bounds. -/
def run (width height : Coord) (calls : List RingCall) : Chronicle :=
  calls.foldl step ⟨⟨bounded width height, [], []⟩, []⟩

theorem toRingRun_run (width height : Coord) (calls : List RingCall) :
    (run width height calls).toRingRun = RingRun.run width height calls := by
  unfold run RingRun.run
  generalize (⟨bounded width height, [], []⟩ : RingRun) = s
  generalize ([] : List EndedFrame) = frames
  induction calls generalizing s frames with
  | nil => rfl
  | cons call calls ih => exact ih _ _

/-- What holds of a new ring and is kept by every call holds of every chronicle. -/
theorem run_induction {P : Chronicle → Prop} (width height : Coord)
    (start : P ⟨⟨bounded width height, [], []⟩, []⟩)
    (step : ∀ c call, P c → P (c.step call)) (calls : List RingCall) :
    P (run width height calls) := by
  unfold run
  generalize (⟨⟨bounded width height, [], []⟩, []⟩ : Chronicle) = c at start
  induction calls generalizing c with
  | nil => exact start
  | cons call calls ih => exact ih _ (step c call start)

/-! ## The history -/

/-- The history is the newest frames, filled up with empty ones. -/
def Remembers (c : Chronicle) : Prop :=
  c.ring.history =
    (c.frames.map (·.damage) ++ List.replicate historyLength Region.empty).take historyLength

theorem Remembers.turn (h : c.Remembers) (frame : EndedFrame) :
    (frame.damage :: c.ring.history).take historyLength =
      (((frame :: c.frames).map (·.damage)) ++
        List.replicate historyLength Region.empty).take historyLength := by
  rw [h, List.map_cons, List.cons_append]
  simp only [historyLength, List.take_succ_cons, List.take_take]
  rfl

theorem Remembers.step (h : c.Remembers) (call : RingCall) : (c.step call).Remembers := by
  cases call with
  | add | addEverything | destroy => exact h
  | addRect rect =>
    have same : (c.ring.addRect rect).history = c.ring.history := by
      unfold addRect
      split <;> rfl
    exact same.trans h
  | resize width height =>
    have same : (c.ring.resize width height).history = c.ring.history := by
      unfold resize
      split <;> rfl
    exact same.trans h
  | rotate => exact h.turn ⟨c.ring.current, c.ring.bounds, none⟩
  | rotateFor id =>
    unfold Remembers Chronicle.step RingRun.step RingRun.ends?
    dsimp only
    split
    · rw [history_rotateFor]
      exact h.turn ⟨c.ring.current, c.ring.bounds, some id⟩
    · exact h

theorem remembers_run (width height : Coord) (calls : List RingCall) :
    (run width height calls).Remembers :=
  run_induction (P := Remembers) width height rfl (fun _ call h => h.step call) calls

/-- The frames that have not been ended yet count as empty. -/
theorem Remembers.exists_mem_take (h : c.Remembers) {age : Nat} (known : age ≤ historyLength)
    (p : Point) : (∃ damage ∈ c.ring.history.take age, damage.contains p) ↔
      ∃ frame ∈ c.frames.take age, frame.damage.contains p := by
  rw [h, List.take_take, Nat.min_eq_left known, List.take_append, ← List.map_take]
  constructor
  · rintro ⟨damage, mem, there⟩
    rcases List.mem_append.1 mem with ended | missing
    · obtain ⟨frame, recent, rfl⟩ := List.mem_map.1 ended
      exact ⟨frame, recent, there⟩
    · obtain rfl := List.eq_of_mem_replicate (List.mem_of_mem_take missing)
      rw [Region.contains_empty] at there
      cases there
  · rintro ⟨frame, mem, there⟩
    exact ⟨frame.damage, List.mem_append_left _ (List.mem_map_of_mem mem), there⟩

theorem Remembers.contains_damageOfAge (h : c.Remembers) (age : Nat) (p : Point) :
    (c.ring.damageOfAge age).contains p ↔
      if 1 ≤ age ∧ age ≤ historyLength then
        c.ring.current.contains p ∨ ∃ frame ∈ c.frames.take age, frame.damage.contains p
      else c.ring.everything.contains p := by
  unfold damageOfAge
  split
  · rename_i known
    rw [Region.contains_foldl_union, h.exists_mem_take known.2 p]
  · exact Region.contains_ofRect

/-- The damage of an age within the history is what is current, or was current when one of so many
frames was ended; that of any other age is the bounds, or everything if there are none. -/
theorem damageOfAge_exact (width height : Coord) (calls : List RingCall) (age : Nat)
    (p : Point) :
    let c := run width height calls
    (c.ring.damageOfAge age).contains p ↔
      if 1 ≤ age ∧ age ≤ historyLength then
        c.ring.current.contains p ∨ ∃ frame ∈ c.frames.take age, frame.damage.contains p
      else (c.ring.bounds.getD Rect.everything).contains p :=
  (remembers_run width height calls).contains_damageOfAge age p

end Chronicle

end Compositor
