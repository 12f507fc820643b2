import Compositor.Draw.Image
import Compositor.Proofs.Pixel.Quantize
import Mathlib.Algebra.Order.Round
import Mathlib.Data.Rat.Floor

/-!
# Premultiplied colours

In a premultiplied colour no channel is greater than alpha. Whatever treats all channels alike and
keeps the order of bytes keeps a colour premultiplied: scaling by a mask, the mean of some colours,
storing. Blending adds to a channel of the source what is left of the channel below, and there is
always room for it: what is left is at most what alpha leaves of 255.
-/

namespace Compositor

namespace Rgba8

/-- No channel is greater than alpha. -/
structure Premultiplied (c : Rgba8) : Prop where
  r : c.r ≤ c.a
  g : c.g ≤ c.a
  b : c.b ≤ c.a

instance (c : Rgba8) : Decidable c.Premultiplied :=
  decidable_of_iff (c.r ≤ c.a ∧ c.g ≤ c.a ∧ c.b ≤ c.a)
    ⟨fun h => ⟨h.1, h.2.1, h.2.2⟩, fun h => ⟨h.r, h.g, h.b⟩⟩

variable {c d : Rgba8} {a a' b b' : UInt8}

/-! ## Products of fractions -/

/-- Two divisions by 256 make up for one by 255, rounded. -/
theorem rounded_div {n : Nat} (most : n ≤ 255 * 255) :
    (n + 128 + (n + 128) / 256) / 256 = (2 * n + 255) / 510 := by
  obtain ⟨q, r, rfl, rest⟩ : ∃ q r, n = 255 * q + r ∧ r < 255 :=
    ⟨n / 255, n % 255, by omega, by omega⟩
  have rounded : (2 * (255 * q + r) + 255) / 510 = if r < 128 then q else q + 1 := by
    split <;> omega
  have carry : (255 * q + r + 128) / 256 =
      if r + 128 < q then q - 1 else if r < q + 128 then q else q + 1 := by
    split_ifs <;> omega
  rw [rounded, carry]
  split_ifs <;> omega

theorem toNat_mulFraction (a b : UInt8) :
    (mulFraction a b).toNat = (2 * (a.toNat * b.toNat) + 255) / 510 := by
  have most : a.toNat * b.toNat ≤ 255 * 255 :=
    Nat.mul_le_mul (Nat.le_of_lt_succ a.toNat_lt) (Nat.le_of_lt_succ b.toNat_lt)
  simp only [mulFraction, UInt8.toNat_ofNat', rounded_div most]
  omega

/-- The product of two fractions of 255 is rounded to the nearest one. -/
theorem mulFraction_eq_round (a b : UInt8) :
    ((mulFraction a b).toNat : Int) = round ((a.toNat * b.toNat : Rat) / 255) := by
  have halves : (a.toNat * b.toNat : Rat) / 255 + 1 / 2 =
      ((2 * (a.toNat * b.toNat) + 255 : Nat) : Int) / (510 : Nat) := by
    push_cast
    ring
  rw [round_eq, halves, Rat.floor_intCast_div_natCast, toNat_mulFraction]
  rfl

theorem mulFraction_mono (le : a ≤ a') (b : UInt8) : mulFraction a b ≤ mulFraction a' b := by
  rw [UInt8.le_iff_toNat_le] at le ⊢
  rw [toNat_mulFraction, toNat_mulFraction]
  have product := Nat.mul_le_mul_right b.toNat le
  omega

/-- A fraction of a fraction is at most either of them. -/
theorem mulFraction_le (a b : UInt8) : (mulFraction a b).toNat ≤ b.toNat := by
  have product := Nat.mul_le_mul_right b.toNat (Nat.le_of_lt_succ a.toNat_lt)
  rw [toNat_mulFraction]
  omega

/-! ## Blending -/

theorem toNat_addSaturating (a b : UInt8) :
    (addSaturating a b).toNat = min (a.toNat + b.toNat) 255 := by
  simp only [addSaturating, UInt8.toNat_ofNat']
  omega

theorem toNat_rest (a : UInt8) : (255 - a).toNat = 255 - a.toNat := by
  have most := Nat.le_of_lt_succ a.toNat_lt
  exact UInt8.toNat_sub_of_le 255 a (UInt8.le_iff_toNat_le.2 most)

/-- A channel that is no greater than alpha leaves room for what alpha leaves of the one below. -/
theorem toNat_addSaturating_of_le (le : b ≤ a) (below : UInt8) :
    (addSaturating b (mulFraction below (255 - a))).toNat =
      b.toNat + (mulFraction below (255 - a)).toNat := by
  have room := mulFraction_le below (255 - a)
  have most := a.toNat_lt
  rw [UInt8.le_iff_toNat_le] at le
  rw [toNat_rest] at room
  rw [toNat_addSaturating]
  omega

/-- The channel that blending without a cap would give: that of the source, and what alpha leaves
of the one below, rounded. -/
def exactChannel (source below alpha : UInt8) : Int :=
  source.toNat + round ((below.toNat * (255 - alpha.toNat) : Rat) / 255)

theorem exactChannel_eq (le : b ≤ a) (below : UInt8) :
    (addSaturating b (mulFraction below (255 - a))).toNat = exactChannel b below a := by
  have most := Nat.le_of_lt_succ a.toNat_lt
  rw [toNat_addSaturating_of_le le, Int.natCast_add, mulFraction_eq_round, toNat_rest,
    Nat.cast_sub most]
  rfl

end Rgba8

/-- Blending is exact: no sum is capped. -/
structure Blend.Exact (source below result : Rgba8) : Prop where
  r : result.r.toNat = Rgba8.exactChannel source.r below.r source.a
  g : result.g.toNat = Rgba8.exactChannel source.g below.g source.a
  b : result.b.toNat = Rgba8.exactChannel source.b below.b source.a
  a : result.a.toNat = Rgba8.exactChannel source.a below.a source.a

namespace Rgba8.Premultiplied

variable {c d : Rgba8}

theorem blend_exact (source : c.Premultiplied) (below : Rgba8) :
    Blend.Exact c below (Blend.premultiplied.apply c below) where
  r := exactChannel_eq source.r below.r
  g := exactChannel_eq source.g below.g
  b := exactChannel_eq source.b below.b
  a := exactChannel_eq (UInt8.le_refl _) below.a

/-- What keeps the order of bytes keeps a colour premultiplied. -/
theorem map (colour : c.Premultiplied) {f : UInt8 → UInt8} (mono : ∀ a b, a ≤ b → f a ≤ f b) :
    (c.map f).Premultiplied :=
  ⟨mono _ _ colour.r, mono _ _ colour.g, mono _ _ colour.b⟩

theorem mask (colour : c.Premultiplied) (m : UInt8) : (c.mask m).Premultiplied :=
  colour.map fun _ _ le => mulFraction_mono le m

theorem blend (source : c.Premultiplied) (below : d.Premultiplied) (mode : Blend) :
    (mode.apply c d).Premultiplied := by
  cases mode with
  | none => exact source
  | premultiplied =>
    have rest := below.map fun _ _ le => mulFraction_mono le (255 - c.a)
    have sum {x y : UInt8} (le : x ≤ c.a) (le' : y ≤ d.a) :
        addSaturating x (mulFraction y (255 - c.a)) ≤
          addSaturating c.a (mulFraction d.a (255 - c.a)) := by
      have less := mulFraction_mono le' (255 - c.a)
      rw [UInt8.le_iff_toNat_le, toNat_addSaturating_of_le le,
        toNat_addSaturating_of_le (UInt8.le_refl _)]
      rw [UInt8.le_iff_toNat_le] at le less
      omega
    exact ⟨sum source.r below.r, sum source.g below.g, sum source.b below.b⟩

/-- A colour that is made opaque is premultiplied. -/
theorem store (colour : c.Premultiplied) (f : PixelFormat) : (f.store c).Premultiplied := by
  have most (a : UInt8) : a ≤ 255 := UInt8.le_iff_toNat_le.2 (Nat.le_of_lt_succ a.toNat_lt)
  unfold PixelFormat.store
  split
  · exact colour
  · exact ⟨most _, most _, most _⟩

end Rgba8.Premultiplied

/-! ## Means and fractions -/

namespace Scalar

theorem toByte_mono {x y : Rat} (le : x ≤ y) : toByte x ≤ toByte y := by
  have floors : floor (x + half) ≤ floor (y + half) :=
    Rat.floor_monotone (Rat.add_le_add_right.2 le)
  rw [UInt8.le_iff_toNat_le]
  simp only [toByte, UInt8.toNat_ofNat']
  omega

end Scalar

namespace Image

/-- A mean with weights that are not negative keeps the order of what it is taken of. -/
theorem mix_mono {right down : Rat} (unit : 0 ≤ right ∧ right ≤ 1) (unit' : 0 ≤ down ∧ down ≤ 1)
    {p p' q q' s s' t t' : UInt8} (hp : p ≤ p') (hq : q ≤ q') (hs : s ≤ s') (ht : t ≤ t') :
    mix right down p q s t ≤ mix right down p' q' s' t' := by
  have value {b b' : UInt8} (le : b ≤ b') {w : Rat} (weight : 0 ≤ w) :
      (b.toNat : Rat) * w ≤ b'.toNat * w :=
    mul_le_mul_of_nonneg_right (by exact_mod_cast UInt8.le_iff_toNat_le.1 le) weight
  have before : 0 ≤ 1 - right := by linarith
  have above : 0 ≤ 1 - down := by linarith
  refine Scalar.toByte_mono ?_
  exact add_le_add (add_le_add (add_le_add (value hp (mul_nonneg before above))
    (value hq (mul_nonneg unit.1 above))) (value hs (mul_nonneg before unit'.1)))
    (value ht (mul_nonneg unit.1 unit'.1))

theorem mixColors_premultiplied {right down : Rat} (unit : 0 ≤ right ∧ right ≤ 1)
    (unit' : 0 ≤ down ∧ down ≤ 1) {p q s t : Rgba8} (hp : p.Premultiplied) (hq : q.Premultiplied)
    (hs : s.Premultiplied) (ht : t.Premultiplied) :
    (mixColors right down p q s t).Premultiplied where
  r := mix_mono unit unit' hp.r hq.r hs.r ht.r
  g := mix_mono unit unit' hp.g hq.g hs.g ht.g
  b := mix_mono unit unit' hp.b hq.b hs.b ht.b

end Image

/-- No channel is greater than alpha, in the order of floats; so none of the four is no number. -/
structure Color.Premultiplied (c : Color) : Prop where
  r : c.r ≤ c.a
  g : c.g ≤ c.a
  b : c.b ≤ c.a

theorem Color.Premultiplied.quantize {c : Color} (colour : c.Premultiplied) :
    c.quantize.Premultiplied :=
  ⟨fractionByte_mono colour.r, fractionByte_mono colour.g, fractionByte_mono colour.b⟩

end Compositor
