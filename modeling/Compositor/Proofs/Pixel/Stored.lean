import Mathlib

/-!
# Stored numbers

A format stores the digits of a mantissa behind the first one, and an exponent with a bias. What is
stored is in normal form, and a number in normal form whose exponent is not too great is stored as
it is.
-/

namespace Compositor.Stored

open Float.Model Float.Model.UnpackedFloat

variable {spec : Format} {m : Nat} {e : Int}

/-- A mantissa and an exponent as a format stores them: the mantissa has all its digits, or fewer
with the least exponent. -/
structure Normal (spec : Format) (m : Nat) (e : Int) : Prop where
  digits : m < 2 ^ spec.mantissaBits
  low : spec.minExponent ≤ e
  normal : 2 ^ spec.mantissaBitsWithoutImplicit ≤ m ∨ e = spec.minExponent

/-- The least stored exponent is one. -/
theorem minExponent_eq (spec : Format) :
    spec.minExponent = 1 - ((spec.exponentBias : Int) + spec.mantissaBitsWithoutImplicit) := by
  have positive : 1 ≤ 2 ^ (spec.exponentBits - 1) := Nat.one_le_two_pow
  rw [Format.minExponent, Format.mantissaBits, Format.exponentBias, Nat.cast_sub positive]
  push_cast
  ring

theorem two_pow_mantissaBits (spec : Format) :
    2 ^ spec.mantissaBits = 2 * 2 ^ spec.mantissaBitsWithoutImplicit := by
  rw [Format.mantissaBits, Nat.add_comm, Nat.pow_succ']

/-- The digits of a mantissa without the first one, which is not stored. -/
theorem toNat_implicit {w : Nat} (m : BitVec w) : (1#1 ++ m).toNat = 2 ^ w + m.toNat := by
  rw [BitVec.toNat_append, ← Nat.shiftLeft_add_eq_or_of_lt m.isLt, Nat.shiftLeft_eq,
    BitVec.toNat_ofNat]
  omega

/-- A mantissa has all its digits from a power of two on. -/
theorem log2_eq_iff (positive : 0 < m) (digits : m < 2 ^ spec.mantissaBits) :
    m.log2 + 1 = spec.mantissaBits ↔ 2 ^ spec.mantissaBitsWithoutImplicit ≤ m := by
  rw [← Nat.le_log2 positive.ne', Format.mantissaBits]
  have := (Nat.log2_lt positive.ne').2 digits
  rw [Format.mantissaBits] at this
  omega

theorem zero_ne_neg_one {w : Nat} (some : 0 < w) : 0#w ≠ -1#w := by
  intro same
  have values := congrArg BitVec.toNat same
  have := Nat.pow_le_pow_right Nat.two_pos some
  rw [BitVec.neg_one_eq_allOnes, BitVec.toNat_allOnes, BitVec.toNat_zero] at values
  omega

/-- A number in normal form is stored as it is, if its exponent is not too great. -/
theorem unpack_pack (s : Sign) (positive : 0 < m) (normal : Normal spec m e)
    (high : e + spec.exponentBias + spec.mantissaBitsWithoutImplicit + 1 <
      2 ^ spec.exponentBits) :
    UnpackedFloat.unpack spec (pack spec (.finite s m e positive)) = .finite s m e positive := by
  obtain ⟨digits, low, long⟩ := normal
  rw [minExponent_eq] at low long
  obtain ⟨x, exponent⟩ : ∃ x : Nat,
      (e + spec.exponentBias + spec.mantissaBitsWithoutImplicit).toNat = x := ⟨_, rfl⟩
  have biased : (x : Int) = e + spec.exponentBias + spec.mantissaBitsWithoutImplicit := by omega
  have whole : x + 1 < 2 ^ spec.exponentBits := by
    rw [← biased] at high
    exact_mod_cast high
  have stored : (BitVec.ofNat spec.exponentBits x).toNat = x := Nat.mod_eq_of_lt (by omega)
  have twice := two_pow_mantissaBits spec
  change UnpackedFloat.unpack spec (if 2 ^ spec.exponentBits ≤
    (e + spec.exponentBias + spec.mantissaBitsWithoutImplicit).toNat + 1 then _
    else if m.log2 + 1 = spec.mantissaBits then _ else _) = _
  rw [exponent, if_neg (by omega)]
  have length := log2_eq_iff positive digits
  by_cases full : 2 ^ spec.mantissaBitsWithoutImplicit ≤ m
  · have mantissa : (1#1 ++ BitVec.ofNat spec.mantissaBitsWithoutImplicit m).toNat = m := by
      rw [toNat_implicit, BitVec.toNat_ofNat, Nat.mod_eq_sub_mod full, Nat.mod_eq_of_lt (by omega)]
      omega
    have finite : BitVec.ofNat spec.exponentBits x ≠ -1#_ := fun same => by
      have := congrArg BitVec.toNat same
      rw [stored, BitVec.neg_one_eq_allOnes, BitVec.toNat_allOnes] at this
      omega
    have nonzero : BitVec.ofNat spec.exponentBits x ≠ 0#_ := fun same => by
      have := congrArg BitVec.toNat same
      rw [stored, BitVec.toNat_zero] at this
      omega
    rw [if_pos (length.2 full)]
    simp only [UnpackedFloat.unpack, unpackMantissa_packComponents, unpackExponent_packComponents,
      unpackSign_packComponents, Sign.ofBitVec_toBitVec, finite, nonzero, ↓reduceIte, stored,
      mantissa]
    congr 1
    omega
  · have mantissa : (BitVec.ofNat spec.mantissaBitsWithoutImplicit m).toNat = m :=
      Nat.mod_eq_of_lt (by omega)
    have nonzero : BitVec.ofNat spec.mantissaBitsWithoutImplicit m ≠ 0#_ := fun same => by
      have := congrArg BitVec.toNat same
      rw [mantissa, BitVec.toNat_zero] at this
      exact positive.ne' this
    rw [if_neg (mt length.1 full)]
    simp only [UnpackedFloat.unpack, unpackMantissa_packComponents, unpackExponent_packComponents,
      unpackSign_packComponents, Sign.ofBitVec_toBitVec, zero_ne_neg_one spec.he, nonzero,
      ↓reduceIte, ↓reduceDIte, mantissa, BitVec.toNat_zero]
    congr 1
    omega

/-- Every number is stored in normal form. -/
theorem normal_unpack {b : BitVec spec.numBits} {s : Sign} {positive : 0 < m}
    (h : UnpackedFloat.unpack spec b = .finite s m e positive) : Normal spec m e := by
  have twice := two_pow_mantissaBits spec
  have digits := (unpackMantissa b).isLt
  simp only [UnpackedFloat.unpack] at h
  split at h
  · split at h <;> cases h
  · split at h
    · rename_i least
      split at h
      · cases h
      · cases h
        refine ⟨by omega, ?_, .inr ?_⟩ <;>
          rw [minExponent_eq, least, BitVec.toNat_zero] <;> omega
    · rename_i more
      cases h
      have exponent : (unpackExponent b).toNat ≠ 0 :=
        fun zero => more (BitVec.eq_of_toNat_eq zero)
      rw [toNat_implicit]
      refine ⟨by omega, ?_, .inl (by omega)⟩
      rw [minExponent_eq]
      omega

/-- The greatest stored exponent stands for what is not finite. -/
theorem exponent_unpack {b : BitVec spec.numBits} {s : Sign} {positive : 0 < m}
    (more : 1 < spec.exponentBits) (h : UnpackedFloat.unpack spec b = .finite s m e positive) :
    e + spec.exponentBias + spec.mantissaBitsWithoutImplicit + 1 < 2 ^ spec.exponentBits := by
  have bits : 2 ^ 2 ≤ 2 ^ spec.exponentBits := Nat.pow_le_pow_right Nat.two_pos more
  have biased : (unpackExponent b).toNat + 1 < 2 ^ spec.exponentBits ∧
      e + spec.exponentBias + spec.mantissaBitsWithoutImplicit ≤
        max 1 (unpackExponent b).toNat := by
    simp only [UnpackedFloat.unpack] at h
    split at h
    · split at h <;> cases h
    · rename_i finite
      have less := (unpackExponent b).isLt
      have apart : (unpackExponent b).toNat ≠ 2 ^ spec.exponentBits - 1 := fun same =>
        finite (BitVec.eq_of_toNat_eq (by
          rw [same, BitVec.neg_one_eq_allOnes, BitVec.toNat_allOnes]))
      refine ⟨by omega, ?_⟩
      split at h
      · rename_i least
        split at h
        · cases h
        · cases h
          rw [least, BitVec.toNat_zero]
          omega
      · cases h
        omega
  have high : max 1 (unpackExponent b).toNat + 1 < 2 ^ spec.exponentBits := by omega
  zify at high
  omega

end Compositor.Stored
