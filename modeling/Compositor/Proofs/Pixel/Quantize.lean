import Compositor.Draw.Options
import Compositor.Proofs.Pixel.Single

/-!
# Bytes of fractions

A fraction becomes a byte by a product, a sum and a conversion, all in single precision and each
rounded. What comes out is a function of the units of the fraction that keeps the order. So a
colour whose channels are no greater than its alpha keeps that when it becomes bytes.
-/

namespace Compositor

open Float.Model Float.Model.UnpackedFloat Single

/-- The form in which single precision stores a number. -/
abbrev unpacked (x : Float32) : UnpackedFloat := x.toModel.unpack

/-- The units of the number in the unit interval that is nearest to a stored number. -/
def unitUnits : UnpackedFloat → Nat
  | .infinity .positive => 2 ^ 149
  | .finite .positive m e _ => min (m * 2 ^ (e + 149).toNat) (2 ^ 149)
  | _ => 0

variable {x y : Float32} {m n : Nat}

theorem unpacked_zero : unpacked 0 = .zero .positive := by rfl

theorem unpacked_one : unpacked 1 = .finite .positive (1 * 2 ^ 23) (-23) (by decide) := by rfl

theorem unpacked_most :
    unpacked 255.0 = .finite .positive (255 * 2 ^ 16) (-(16 : Nat)) (by decide) := by
  rfl

theorem unpacked_half : unpacked 0.5 = .finite .positive (2 ^ 23) (-24) (by decide) := by rfl

/-- Every stored number is in normal form. -/
theorem normal_unpacked {s : Sign} {e : Int} {positive : 0 < m}
    (h : unpacked x = .finite s m e positive) : Normal m e :=
  normal_unpack h

theorem counts_one : Counts (unpacked 1) (2 ^ 149) := by
  rw [unpacked_one]
  exact ⟨⟨by decide, by decide, .inl (by decide)⟩, by decide⟩

theorem unitUnits_le (f : UnpackedFloat) : unitUnits f ≤ 2 ^ 149 := by
  unfold unitUnits
  split <;> omega

theorem le_iff_unpacked : x ≤ y ↔ UnpackedFloat.le (unpacked x) (unpacked y) = true :=
  decide_eq_true_iff

theorem lt_iff_unpacked : x < y ↔ UnpackedFloat.lt (unpacked x) (unpacked y) = true :=
  decide_eq_true_iff

theorem counts_clampUnit (number : unpacked x ≠ .notANumber) :
    Counts (unpacked (clampUnit x)) (unitUnits (unpacked x)) := by
  have negative := lt_iff_unpacked (x := x) (y := 0)
  have above := lt_iff_unpacked (x := 1) (y := x)
  rw [unpacked_zero] at negative
  unfold clampUnit
  rcases stored : unpacked x with (_ | _) | _ | s | ⟨_ | _, m, e, positive⟩ <;>
    rw [stored] at negative above
  · rw [if_pos (negative.2 rfl), unpacked_zero]
    rfl
  · rw [if_neg (mt negative.1 Bool.false_ne_true), if_pos (above.2 (by rw [unpacked_one]; rfl))]
    exact counts_one
  · exact absurd stored number
  · rw [if_neg (mt negative.1 Bool.false_ne_true),
      if_neg (mt above.1 (by rw [unpacked_one]; exact Bool.false_ne_true)), stored]
    rfl
  · rw [if_pos (negative.2 rfl), unpacked_zero]
    rfl
  · have counts : Counts (.finite .positive m e positive) (m * 2 ^ (e + 149).toNat) :=
      ⟨normal_unpacked stored, rfl⟩
    rw [lt_iff_counts counts_one counts] at above
    rw [if_neg (mt negative.1 Bool.false_ne_true), unitUnits]
    split
    · rename_i great
      rw [Nat.min_eq_right (above.1 great).le]
      exact counts_one
    · rename_i small
      rw [Nat.min_eq_left (Nat.not_lt.1 (mt above.2 small)), stored]
      exact counts

/-- The product is rounded. -/
theorem counts_mul_most (counts : Counts (unpacked x) n) (small : n ≤ 2 ^ 149) :
    Counts (unpacked (x * 255.0)) (nearest (255 * n)) := by
  have product := counts_mul (c := 255) (p := 16) counts (by decide) (by decide)
  have most : nearest (255 * n) ≤ nearest (255 * 2 ^ 149) := nearest_mono (by omega)
  rw [nearest_eq (by decide)] at most
  have same : unpacked (x * 255.0) = UnpackedFloat.unpack .binary32 (pack .binary32
      (UnpackedFloat.mul .binary32 (unpacked x) (unpacked 255.0))) := rfl
  rw [same, unpacked_most, unpack_pack product (by omega)]
  exact product

theorem counts_add_half (counts : Counts (unpacked x) n) (small : n ≤ 255 * 2 ^ 149) :
    Counts (unpacked (x + 0.5)) (nearest (n + 2 ^ 148)) := by
  have half : Counts (unpacked 0.5) (2 ^ 148) := by
    rw [unpacked_half]
    exact ⟨⟨by decide, by decide, .inl (by decide)⟩, by decide⟩
  have sum := counts_add counts half (by decide)
  have most : nearest (n + 2 ^ 148) ≤ nearest (511 * 2 ^ 148) := nearest_mono (by omega)
  rw [nearest_eq (by decide)] at most
  have same : unpacked (x + 0.5) = UnpackedFloat.unpack .binary32 (pack .binary32
      (UnpackedFloat.add .binary32 (unpacked x) (unpacked 0.5))) := rfl
  rw [same, unpack_pack sum (by omega)]
  exact sum

theorem fractionByte_eq (number : unpacked x ≠ .notANumber) : (fractionByte x).toNat =
    nearest (nearest (255 * unitUnits (unpacked x)) + 2 ^ 148) / 2 ^ 149 := by
  have unit := unitUnits_le (unpacked x)
  have product := counts_mul_most (counts_clampUnit number) unit
  have most : nearest (255 * unitUnits (unpacked x)) ≤ nearest (255 * 2 ^ 149) :=
    nearest_mono (by omega)
  rw [nearest_eq (by decide)] at most
  have sum := counts_add_half product most
  have bound : nearest (nearest (255 * unitUnits (unpacked x)) + 2 ^ 148) ≤
      nearest (511 * 2 ^ 148) := nearest_mono (by omega)
  rw [nearest_eq (by decide)] at bound
  exact toNat_toUInt8 sum (by omega)

theorem unitUnits_mono (le : x ≤ y) : unitUnits (unpacked x) ≤ unitUnits (unpacked y) := by
  have normalX := @normal_unpacked x
  have normalY := @normal_unpacked y
  rw [le_iff_unpacked] at le
  generalize unpacked x = f at *
  generalize unpacked y = g at *
  rcases f with (_ | _) | _ | s | ⟨_ | _, m, e, positive⟩ <;> try exact Nat.zero_le _
  · -- Nothing but infinity is as great as infinity.
    rcases g with (_ | _) | _ | s' | ⟨_ | _, n, e', positive'⟩ <;>
      try exact absurd le Bool.false_ne_true
    exact Nat.le_refl _
  · rcases g with (_ | _) | _ | s' | ⟨_ | _, n, e', positive'⟩ <;>
      try exact absurd le Bool.false_ne_true
    · exact unitUnits_le _
    · have counts : Counts (.finite .positive m e positive) _ := ⟨normalX rfl, rfl⟩
      have counts' : Counts (.finite .positive n e' positive') _ := ⟨normalY rfl, rfl⟩
      exact min_le_min_right _ ((le_iff_counts counts counts').1 le)

/-- What is no number is in no order. -/
theorem ne_notANumber (le : x ≤ y) :
    unpacked x ≠ .notANumber ∧ unpacked y ≠ .notANumber := by
  rw [le_iff_unpacked] at le
  constructor
  · intro none
    rw [none] at le
    cases le
  · intro none
    rw [none] at le
    generalize unpacked x = f at le
    rcases f with (_ | _) | _ | s | ⟨_ | _, m, e, positive⟩ <;> cases le

/-- A greater fraction gets no smaller byte. -/
theorem fractionByte_mono (le : x ≤ y) : fractionByte x ≤ fractionByte y := by
  obtain ⟨numberX, numberY⟩ := ne_notANumber le
  rw [UInt8.le_iff_toNat_le, fractionByte_eq numberX, fractionByte_eq numberY]
  refine Nat.div_le_div_right (nearest_mono (Nat.add_le_add_right (nearest_mono ?_) _))
  exact Nat.mul_le_mul_left _ (unitUnits_mono le)

end Compositor
