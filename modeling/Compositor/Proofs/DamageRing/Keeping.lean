import Compositor.Proofs.DamageRing.Bounds

/-!
# What stays damaged

Damage that is added joins what is current. But to damage everything, and to change the bounds, is
to replace what is current: by the bounds, or in a ring without bounds by one rectangle that stands
for the whole plane. That rectangle spans less than half of the columns and rows, and a ring without
bounds takes damage anywhere. Main statement: a point that was damaged and lies in the bounds stays
damaged, unless what is current was replaced in a ring without bounds and the point lies outside
that rectangle; and the same holds of the full damage that a buffer of unknown age gets.
-/

namespace Compositor

/-- Whether a call is there to damage something. The others end a frame or a buffer. -/
def RingCall.damages : RingCall → Bool
  | .add _ | .addRect _ | .addEverything | .resize _ _ => true
  | .rotate | .rotateFor _ | .destroy _ => false

namespace DamageRing

variable {ring : DamageRing} {p : Point}

/-- Whether a call replaces what is current by everything. -/
def replaces (ring : DamageRing) : RingCall → Bool
  | .addEverything => true
  | .resize width height => ring.changesSides width height
  | .add _ | .addRect _ | .rotate | .rotateFor _ | .destroy _ => false

/-- Everything reaches as far as the bounds, or as the rectangle that stands for the plane. -/
theorem contains_everything_iff (inside : ∀ r ∈ ring.bounds, r.contains p) :
    ring.everything.contains p ↔ (ring.bounds = none → Rect.everything.contains p) := by
  unfold everything
  cases bounds : ring.bounds with
  | none => simp
  | some r => simpa using inside r bounds

theorem contains_addEverything_iff (inside : ∀ r ∈ ring.addEverything.bounds, r.contains p) :
    ring.addEverything.current.contains p ↔
      (ring.addEverything.bounds = none → Rect.everything.contains p) := by
  have same : ring.addEverything.everything = ring.everything := rfl
  rw [← contains_everything_iff inside, same]
  exact Region.contains_ofRect

theorem contains_resize_iff {width height : Coord} (changes : ring.changesSides width height)
    (inside : ∀ r ∈ (ring.resize width height).bounds, r.contains p) :
    (ring.resize width height).current.contains p ↔
      ((ring.resize width height).bounds = none → Rect.everything.contains p) := by
  unfold resize at inside ⊢
  rw [if_pos changes] at inside ⊢
  exact contains_addEverything_iff inside

theorem contains_damageOfAge_iff (inside : ring.current.Inside ring.bounds)
    (there : ring.current.contains p) {age : Nat} (unknown : ¬ (1 ≤ age ∧ age ≤ historyLength)) :
    (ring.damageOfAge age).contains p ↔ (ring.bounds = none → Rect.everything.contains p) := by
  rw [damageOfAge, if_neg unknown,
    ← contains_everything_iff fun r bounds => inside r bounds p there]
  exact Region.contains_ofRect

end DamageRing

namespace RingRun

open DamageRing

variable {s : RingRun} {p : Point}

/-- One call: what is current is replaced, or it grows. -/
theorem contains_step_iff {call : RingCall} (damages : call.damages)
    (there : s.ring.current.contains p)
    (inside : ∀ r ∈ (s.step call).ring.bounds, r.contains p) :
    (s.step call).ring.current.contains p ↔
      (s.ring.replaces call → (s.step call).ring.bounds = none → Rect.everything.contains p) := by
  cases call with
  | add region =>
    simp only [replaces, Bool.false_eq_true, false_implies, iff_true]
    exact (contains_current_add s.ring region p).2 (.inl there)
  | addRect rect =>
    simp only [replaces, Bool.false_eq_true, false_implies, iff_true]
    exact (contains_current_addRect s.ring rect p).2 (.inl there)
  | addEverything =>
    simp only [replaces, forall_const]
    exact contains_addEverything_iff inside
  | resize width height =>
    by_cases changes : s.ring.changesSides width height
    · simp only [replaces, changes, forall_const]
      exact contains_resize_iff changes inside
    · have still : (s.step (.resize width height)).ring = s.ring := if_neg changes
      simp [replaces, changes, still, there]
  | rotate | rotateFor | destroy => cases damages

theorem inside_run (width height : Coord) (calls : List RingCall) :
    (run width height calls).ring.current.Inside (run width height calls).ring.bounds := by
  rw [← Chronicle.toRingRun_run]
  exact (Chronicle.cut_run width height calls).current

/-- After any calls on a new ring, a further call to damage something keeps each point that is
damaged and lies in the bounds that hold after it, unless it replaces what is current in a ring that
has no bounds then and the point lies outside the rectangle that stands for the plane. The damage
that a buffer of unknown age gets covers each point that is current, but for such points of a ring
without bounds. -/
theorem damage_stays_inside_the_plane (width height : Coord) (calls : List RingCall)
    (call : RingCall) (damages : call.damages) :
    let s := run width height calls
    let after := s.step call
    (∀ p, s.ring.current.contains p → (∀ r ∈ after.ring.bounds, r.contains p) →
        (after.ring.current.contains p ↔
          (s.ring.replaces call → after.ring.bounds = none → Rect.everything.contains p))) ∧
      ∀ age, ¬ (1 ≤ age ∧ age ≤ historyLength) → ∀ p, s.ring.current.contains p →
        ((s.ring.damageOfAge age).contains p ↔
          (s.ring.bounds = none → Rect.everything.contains p)) := by
  intro s after
  refine ⟨fun p there inside => contains_step_iff damages there inside,
    fun age unknown p there => ?_⟩
  exact contains_damageOfAge_iff (inside_run width height calls) there unknown

/-- The last column of the rectangle that stands for the plane is damaged as before. -/
theorem last_column_stays_damaged :
    let s := run 0 0 [.addRect ⟨1073741822, 0, 1, 1⟩]
    let corner : Point := ⟨1073741822, 0⟩
    (s.step .addEverything).ring.current.contains corner ∧
      (s.ring.damageOfAge 0).contains corner := by
  intro s corner
  have there : s.ring.current.contains corner := by decide
  have covered : Rect.everything.contains corner := by decide
  obtain ⟨kept, full⟩ := damage_stays_inside_the_plane 0 0 [.addRect ⟨1073741822, 0, 1, 1⟩]
    .addEverything rfl
  have unbounded : (s.step .addEverything).ring.bounds = none := by decide
  refine ⟨(kept corner there ?_).2 fun _ _ => covered, (full 0 (by decide) corner there).2
    fun _ => covered⟩
  rw [unbounded]
  exact nofun

/-- The column behind it is lost: when everything is damaged, when the bounds are lifted, and in the
damage of a buffer of unknown age. -/
theorem next_column_is_lost :
    let s := run 0 0 [.addRect ⟨1073741823, 0, 1, 1⟩]
    let wide := run 2147483647 1 [.addRect ⟨1073741823, 0, 1, 1⟩]
    let corner : Point := ⟨1073741823, 0⟩
    (s.ring.current.contains corner ∧ s.ring.bounds = none ∧
        ¬ (s.step .addEverything).ring.current.contains corner ∧
        ¬ (s.ring.damageOfAge 0).contains corner) ∧
      wide.ring.current.contains corner ∧ (wide.step (.resize 0 0)).ring.bounds = none ∧
        ¬ (wide.step (.resize 0 0)).ring.current.contains corner := by
  decide

end RingRun

end Compositor
