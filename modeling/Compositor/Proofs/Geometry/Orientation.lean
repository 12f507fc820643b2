import Compositor.Proofs.Draw.Mapping
import Mathlib.Data.Set.Function
import Mathlib.Tactic.FieldSimp
import Mathlib.Tactic.Ring

/-!
# Orienting images

The transforms form a group under `andThen`, made from one mirror and one quarter turn. On images
of any size they act by affine maps: the map of two transforms in a row is the product of their
maps, where the second one sees the size that the first one leaves.
-/

namespace Compositor

open Scalar

/-! ## Products of maps -/

namespace Affine

theorem mk_mul_mk (a b c d e f a' b' c' d' e' f' : Rat) :
    (⟨a, b, c, d, e, f⟩ * ⟨a', b', c', d', e', f'⟩ : Affine Rat) =
      ⟨a * a' + c * b', b * a' + d * b', a * c' + c * d', b * c' + d * d',
        a * e' + c * f' + e, b * e' + d * f' + f⟩ := rfl

protected theorem mul_assoc (l m n : Affine Rat) : l * m * n = l * (m * n) := by
  change mul (mul l m) n = mul l (mul m n)
  simp only [mul, mk.injEq]
  refine ⟨?_, ?_, ?_, ?_, ?_, ?_⟩ <;> ring

protected theorem mul_identity (m : Affine Rat) : m * identity = m := by
  change mul m identity = m
  simp [mul, identity, one, zero, ofInt]

theorem apply_identity (p : Position Rat) : (identity : Affine Rat).apply p = p := by
  simp [apply, identity, one, zero, ofInt]

/-- The formula for the inverse gives a left inverse. -/
theorem inverse_mul {m : Affine Rat} (regular : m.det ≠ 0) : m.inverse * m = identity := by
  have nonzero : m.a * m.d - m.b * m.c ≠ 0 := regular
  change mul m.inverse m = identity
  simp only [mul, inverse, identity, one, zero, ofInt, mk.injEq]
  refine ⟨?_, ?_, ?_, ?_, ?_, ?_⟩ <;> field_simp <;> push_cast <;> ring

theorem inverse_eq_of_mul_eq_identity {m n : Affine Rat} (regular : m.det ≠ 0)
    (undone : m * n = identity) : m.inverse = n :=
  calc m.inverse = m.inverse * (m * n) := by rw [undone, Affine.mul_identity]
    _ = m.inverse * m * n := (Affine.mul_assoc ..).symm
    _ = identity * n := by rw [inverse_mul regular]
    _ = n := by
      change mul identity n = n
      simp [mul, identity, one, zero, ofInt]

end Affine

namespace Transform

/-! ## The group -/

theorem andThen_assoc (a b c : Transform) :
    (a.andThen b).andThen c = a.andThen (b.andThen c) := by
  obtain ⟨aFlipped, aTurns⟩ := a
  obtain ⟨bFlipped, bTurns⟩ := b
  obtain ⟨cFlipped, cTurns⟩ := c
  revert aFlipped aTurns bFlipped bTurns cFlipped cTurns
  decide

theorem andThen_inverse (t : Transform) : t.andThen t.inverse = normal := by
  obtain ⟨flipped, turns⟩ := t
  revert flipped turns
  decide

theorem size_andThen {β : Type} (a b : Transform) (width height : β) :
    (a.andThen b).size width height = b.size (a.size width height).1 (a.size width height).2 := by
  have sideways : (a.andThen b).sideways = (a.sideways ^^ b.sideways) := by
    obtain ⟨aFlipped, aTurns⟩ := a
    obtain ⟨bFlipped, bTurns⟩ := b
    revert aFlipped aTurns bFlipped bTurns
    decide
  simp only [size, sideways]
  cases a.sideways <;> cases b.sideways <;> rfl

/-- Every transform is the mirror or nothing, followed by quarter turns. -/
theorem generated {property : Transform → Prop} (mirrored : property mirror)
    (turned : property quarter)
    (composed : ∀ a b, property a → property b → property (a.andThen b)) (t : Transform) :
    property t := by
  have rotated (turns : Fin 4) (flipped : Bool) (start : property ⟨flipped, 0⟩) :
      property ⟨flipped, turns⟩ := by
    have next (turns : Fin 4) (sofar : property ⟨flipped, turns⟩) :
        property ⟨flipped, 1 + turns⟩ := by
      simpa [andThen, quarter] using composed _ _ sofar turned
    obtain rfl | rfl | rfl | rfl := turns_eq turns
    · exact start
    · exact next 0 start
    · exact next 1 (next 0 start)
    · exact next 2 (next 1 (next 0 start))
  obtain ⟨flipped, turns⟩ := t
  cases flipped
  · exact rotated turns false (composed mirror mirror mirrored mirrored)
  · exact rotated turns true mirrored

/-! ## The action -/

/-- After any transform, this one acts on the image of the size that is left. -/
def Continues (b : Transform) : Prop :=
  ∀ (a : Transform) (width height : Rat),
    b.toAffine (a.size width height).1 (a.size width height).2 * a.toAffine width height =
      (a.andThen b).toAffine width height

theorem continues_mirror : mirror.Continues := by
  rintro ⟨flipped, turns⟩ width height
  obtain rfl | rfl | rfl | rfl := turns_eq turns <;> cases flipped
  all_goals
    -- Differences of turns are computed, so none may become a negative number before.
    simp [-zero_sub, toAffine, Affine.mk_mul_mk, mirror, andThen, size, sideways, rotation,
      Affine.identity, Affine.shift, one, zero, ofInt]

theorem continues_quarter : quarter.Continues := by
  rintro ⟨flipped, turns⟩ width height
  obtain rfl | rfl | rfl | rfl := turns_eq turns <;> cases flipped
  all_goals
    simp [toAffine, Affine.mk_mul_mk, quarter, andThen, size, sideways, rotation, Affine.identity,
      Affine.shift, one, zero, ofInt]

theorem Continues.andThen {b c : Transform} (first : b.Continues) (second : c.Continues) :
    (b.andThen c).Continues := by
  intro a width height
  calc (b.andThen c).toAffine (a.size width height).1 (a.size width height).2 *
        a.toAffine width height
      = c.toAffine ((a.andThen b).size width height).1 ((a.andThen b).size width height).2 *
          b.toAffine (a.size width height).1 (a.size width height).2 * a.toAffine width height := by
        rw [← second, size_andThen]
    _ = c.toAffine ((a.andThen b).size width height).1 ((a.andThen b).size width height).2 *
          (a.andThen b).toAffine width height := by rw [Affine.mul_assoc, first]
    _ = (a.andThen (b.andThen c)).toAffine width height := by rw [second, andThen_assoc]

theorem continues (t : Transform) : t.Continues :=
  generated continues_mirror continues_quarter (fun _ _ => Continues.andThen) t

theorem toAffine_normal (width height : Rat) :
    normal.toAffine width height = (Affine.identity : Affine Rat) := by
  simp [toAffine, normal, rotation, Affine.mk_mul_mk, Affine.identity, Affine.shift, one, zero,
    ofInt]

theorem toAffine_inverse_mul (t : Transform) (width height : Rat) :
    t.inverse.toAffine (t.size width height).1 (t.size width height).2 * t.toAffine width height =
      Affine.identity := by
  rw [continues, andThen_inverse, toAffine_normal]

/-- The other way round, `t` undoes its inverse. -/
theorem toAffine_mul_inverse (t : Transform) (width height : Rat) :
    t.toAffine width height * t.inverse.toAffine (t.size width height).1 (t.size width height).2 =
      Affine.identity := by
  have undone := t.inverse.toAffine_inverse_mul (t.size width height).1 (t.size width height).2
  rwa [inverse_inverse, size_inverse] at undone

/-! ## Pixels -/

/-- The middles of the pixels of a `width × height` image. -/
def middles (width height : Int) : Set (Position Rat) :=
  {p | ∃ column row : Int, (0 ≤ column ∧ column < width ∧ 0 ≤ row ∧ row < height) ∧
    p = ⟨column + 1 / 2, row + 1 / 2⟩}

theorem mapsTo_middles (t : Transform) (width height : Int) :
    Set.MapsTo (t.toAffine (width : Rat) (height : Rat)).apply (middles width height)
      (middles (t.size width height).1 (t.size width height).2) := by
  rintro _ ⟨column, row, inside, rfl⟩
  exact ⟨_, _, t.cell_inside inside, t.toAffine_apply_cell width height column row⟩

theorem size_intCast (t : Transform) (width height : Int) :
    t.size (width : Rat) (height : Rat) =
      (((t.size width height).1 : Rat), ((t.size width height).2 : Rat)) :=
  t.size_map Int.cast width height

/-- Transforms act on images of every size. The map of `b` on the image that `a` leaves, after the
map of `a`, is the map of `a.andThen b`; the inverse transform has the inverse map; and the middles
of the pixels go one-to-one onto the middles of the pixels of the transformed image. -/
theorem toAffine_action (a b t : Transform) :
    (∀ width height : Rat,
      b.toAffine (a.size width height).1 (a.size width height).2 * a.toAffine width height =
        (a.andThen b).toAffine width height) ∧
    (∀ width height : Rat,
      let back := t.inverse.toAffine (t.size width height).1 (t.size width height).2
      back * t.toAffine width height = Affine.identity ∧
      t.toAffine width height * back = Affine.identity ∧
      back = (t.toAffine width height).inverse) ∧
    ∀ width height : Int,
      Set.BijOn (t.toAffine (width : Rat) (height : Rat)).apply (middles width height)
        (middles (t.size width height).1 (t.size width height).2) := by
  refine ⟨b.continues a, fun width height => ?inverse, fun width height => ?pixels⟩
  case inverse =>
    have regular : (t.toAffine width height).det ≠ 0 := by
      rw [det_toAffine]
      split <;> norm_num
    have undone := t.toAffine_mul_inverse width height
    exact ⟨t.toAffine_inverse_mul width height, undone,
      (Affine.inverse_eq_of_mul_eq_identity regular undone).symm⟩
  case pixels =>
    have back := t.inverse.mapsTo_middles (t.size width height).1 (t.size width height).2
    rw [size_inverse] at back
    refine Set.InvOn.bijOn ⟨fun p _ => ?_, fun p _ => ?_⟩ (t.mapsTo_middles width height) back
    · have undone := t.toAffine_inverse_mul width height
      rw [size_intCast] at undone
      rw [← Affine.apply_mul, undone, Affine.apply_identity]
    · have undone := t.toAffine_mul_inverse width height
      rw [size_intCast] at undone
      rw [← Affine.apply_mul, undone, Affine.apply_identity]

end Transform

end Compositor
