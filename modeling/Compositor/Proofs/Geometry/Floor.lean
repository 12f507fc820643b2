import Compositor.Geometry.Scalar
import Compositor.Proofs.Pixel.Single

/-!
# Floors of floats

Coordinates are exact in double precision. So a float that is not below one coordinate and not at
or above another has a floor between them, if neither is negative; what is not a number passes both
tests, and its floor is zero.
-/

namespace Compositor.Double

open Float.Model Float.Model.UnpackedFloat Single

/-- The form in which double precision stores a number. -/
abbrev unpacked (x : Float) : UnpackedFloat := x.toModel.unpack

variable {x y : Float} {m n : Nat} {e : Int}

/-! ## Rounding what is exact -/

/-- The exponent of a number in normal form is the one that rounding aims at. -/
theorem targetExponent_eq {spec : Format} (normal : Stored.Normal spec m e) (positive : 0 < m) :
    spec.targetExponent (totalExponent m e) = e := by
  obtain ⟨digits, low, long⟩ := normal
  have length := Stored.log2_eq_iff positive digits
  have most := (Nat.log2_lt positive.ne').2 digits
  rw [Format.targetExponent, totalExponent]
  rcases long with full | least
  · have := length.2 full
    omega
  · omega

/-- A number with zeros for its surplus digits is rounded to itself. -/
theorem roundWithAccuracy_exact {spec : Format} (s : Sign) (normal : Stored.Normal spec m e)
    (positive : 0 < m) (k : Nat) :
    roundWithAccuracy spec s (m * 2 ^ k) (e - k) .exact = .finite s m e positive := by
  have target := targetExponent_eq normal positive
  have same : totalExponent (m * 2 ^ k) (e - k) = totalExponent m e := by
    rw [totalExponent, totalExponent, log2_mul_pow positive.ne']
    push_cast
    ring
  have shift : (e - (e - k)).toNat = k := by omega
  have rounded : (ExtendedMantissa.ofMantissaAndAccuracy (m * 2 ^ k) .exact >>> k).roundedMantissa
      = m := by
    rw [roundedMantissa_shift]
    have scaled := quotient_scale m 0 k
    rwa [Nat.zero_add, quotient_zero] at scaled
  have first : shiftToTargetExponent spec (m * 2 ^ k) (e - k) .exact =
      (ExtendedMantissa.ofMantissaAndAccuracy (m * 2 ^ k) .exact >>> k, e) := by
    rw [shiftToTargetExponent, same, target, shiftToExponent, shift, sub_add_cancel]
  have second : shiftToTargetExponent spec m e .exact =
      (ExtendedMantissa.ofMantissaAndAccuracy m .exact >>> 0, e) := by
    rw [shiftToTargetExponent, target, shiftToExponent, sub_self, Int.toNat_zero, Nat.cast_zero,
      add_zero]
  rw [roundWithAccuracy, first]
  simp only [rounded, second]
  simp only [shift_exact, pow_zero, Nat.div_one, positive.ne', ↓reduceDIte]

/-! ## Natural numbers -/

/-- The zeros that a mantissa of so many digits needs to have all its digits. -/
def padding (n : Nat) : Nat := 52 - n.log2

theorem two_pow_padding (positive : 0 < n) (small : n < 2 ^ 53) :
    2 ^ 52 ≤ n * 2 ^ padding n ∧ n * 2 ^ padding n < 2 ^ 53 := by
  have digits := (Nat.log2_lt positive.ne').2 small
  have scaled : (n * 2 ^ padding n).log2 = 52 := by
    rw [log2_mul_pow positive.ne', padding]
    omega
  have some : n * 2 ^ padding n ≠ 0 := Nat.mul_ne_zero positive.ne' (Nat.two_pow_pos _).ne'
  exact (Nat.log2_eq_iff some).1 scaled

theorem normal_padded (positive : 0 < n) (small : n < 2 ^ 53) :
    Stored.Normal .binary64 (n * 2 ^ padding n) (-padding n) := by
  obtain ⟨long, digits⟩ := two_pow_padding positive small
  have least : Format.binary64.minExponent = -1074 := by decide
  refine ⟨digits, ?_, .inl long⟩
  rw [least, padding]
  omega

theorem unpack_pack_padded (s : Sign) (positive : 0 < n) (small : n < 2 ^ 53)
    (positive' : 0 < n * 2 ^ padding n) : UnpackedFloat.unpack .binary64
      (pack .binary64 (.finite s (n * 2 ^ padding n) (-padding n) positive')) =
        .finite s (n * 2 ^ padding n) (-padding n) positive' := by
  refine Stored.unpack_pack s positive' (normal_padded positive small) ?_
  have bias : ((Format.binary64.exponentBias : Nat) : Int) = 1023 := rfl
  rw [bias]
  norm_num
  omega

/-- A whole number is rounded to itself, with any number of zeros behind the point. -/
theorem round_padded (s : Sign) (positive : 0 < n) (small : n < 2 ^ 53)
    (positive' : 0 < n * 2 ^ padding n) (k : Nat) :
    UnpackedFloat.round .binary64 s (n * 2 ^ k) (-k) =
      .finite s (n * 2 ^ padding n) (-padding n) positive' := by
  have digits := (Nat.log2_lt positive.ne').2 small
  have target : Format.binary64.targetExponent (totalExponent (n * 2 ^ k) (-k)) = -padding n := by
    change max (((n * 2 ^ k).log2 : Int) + 1 + -k - 53) (-1074) = _
    rw [log2_mul_pow positive.ne', padding]
    omega
  have exact_ :=
    roundWithAccuracy_exact s (normal_padded positive small) positive' (k - padding n)
  rw [UnpackedFloat.round, decreaseExponent, target, Nat.shiftLeft_eq]
  convert exact_ using 2
  · rw [mul_assoc, mul_assoc, ← Nat.pow_add, ← Nat.pow_add]
    congr 2
    omega
  · omega

/-- A word with at most 53 digits is exact in double precision. -/
theorem unpacked_toFloat (word : UInt64) (positive : 0 < word.toNat)
    (small : word.toNat < 2 ^ 53) (positive' : 0 < word.toNat * 2 ^ padding word.toNat) :
    unpacked word.toFloat =
      .finite .positive (word.toNat * 2 ^ padding word.toNat) (-padding word.toNat) positive' := by
  have same : unpacked word.toFloat =
      UnpackedFloat.unpack .binary64 (pack .binary64 (UnpackedFloat.ofUInt64 .binary64 word)) := rfl
  have exact_ := round_padded .positive positive small positive' 0
  rw [pow_zero, mul_one] at exact_
  rw [same, UnpackedFloat.ofUInt64, UnpackedFloat.ofNat, UnpackedFloat.ofInt,
    normalize_natCast positive]
  exact exact_ ▸ unpack_pack_padded .positive positive small positive'

/-- A natural number that is not too great is exact in double precision. -/
theorem unpacked_ofNat (positive : 0 < n) (small : n < 2 ^ 53) :
    ∃ positive', unpacked (Float.ofNat n) =
      .finite .positive (n * 2 ^ padding n) (-padding n) positive' := by
  have positive' : 0 < n * 2 ^ padding n := Nat.mul_pos positive (Nat.two_pow_pos _)
  have normal := normal_padded positive small
  have stored := unpack_pack_padded .positive positive small positive'
  refine ⟨positive', ?_⟩
  have word : n.toUInt64.toNat = n := Nat.mod_eq_of_lt (by omega)
  have converted := unpacked_toFloat n.toUInt64
  simp only [word] at converted
  replace converted := converted positive small positive'
  have one : unpacked (Float.ofBits 0x3FF0000000000000) =
      .finite .positive (1 * 2 ^ 52) (-(52 : Nat)) (by decide) := by rfl
  have product : Float.ofNat n = n.toUInt64.toFloat * Float.ofBits 0x3FF0000000000000 :=
    dif_pos ⟨small, Nat.zero_le _⟩
  have same : unpacked (Float.ofNat n) = UnpackedFloat.unpack .binary64 (pack .binary64
      (UnpackedFloat.mul .binary64 (unpacked n.toUInt64.toFloat)
        (unpacked (Float.ofBits 0x3FF0000000000000)))) := by
    rw [product]
    rfl
  have exact_ := roundWithAccuracy_exact .positive normal positive' 52
  have value : UnpackedFloat.mul .binary64 (unpacked n.toUInt64.toFloat)
      (unpacked (Float.ofBits 0x3FF0000000000000)) =
        .finite .positive (n * 2 ^ padding n) (-padding n) positive' := by
    rw [converted, one]
    change roundWithAccuracy .binary64 .positive (n * 2 ^ padding n * (1 * 2 ^ 52))
      (-padding n + -(52 : Nat)) .exact = _
    rw [one_mul, ← sub_eq_add_neg]
    exact exact_
  rw [same, value, stored]

/-! ## Whole parts -/

theorem unpacked_abs (x : Float) : unpacked x.abs = UnpackedFloat.abs (unpacked x) := by
  have same : unpacked x.abs =
      UnpackedFloat.unpack .binary64 (pack .binary64 (UnpackedFloat.abs (unpacked x))) := rfl
  rw [same]
  rcases h : unpacked x with s | _ | s | ⟨s, m, e, positive⟩
  · cases s <;> rfl
  · rfl
  · cases s <;> rfl
  · exact Stored.unpack_pack .positive positive (Stored.normal_unpack h)
      (Stored.exponent_unpack (by decide) h)

/-- Conversion cuts off what is behind the point. -/
theorem toNat_toUInt64 (positive : 0 < m) {k : Nat} (small : m / 2 ^ k < 2 ^ 64) :
    (UnpackedFloat.finite .positive m (-k) positive).toUInt64.toNat = m / 2 ^ k := by
  have shift : ((0 : Int) - -k).toNat = k := by omega
  have none : (-k : Int).toNat = 0 := by omega
  have whole : roundToInt .positive m (-k) = (m / 2 ^ k : Nat) := by
    simp only [roundToInt, decreaseExponent, sub_zero, none, Nat.shiftLeft_zero, Nat.cast_zero,
      shiftToExponent, shift, shift_exact]
    rfl
  have fits : m / 2 ^ k < UInt64.size := small
  rw [UnpackedFloat.toUInt64, UnpackedFloat.toInt, whole, Int.toNat_natCast, UInt64.ofNatClamp,
    dif_pos fits, UInt64.toNat_ofNatLT]

theorem lt_iff_unpacked : x < y ↔ UnpackedFloat.lt (unpacked x) (unpacked y) = true :=
  decide_eq_true_iff

theorem le_iff_unpacked : x ≤ y ↔ UnpackedFloat.le (unpacked x) (unpacked y) = true :=
  decide_eq_true_iff

theorem unpacked_zero : unpacked 0 = .zero .positive := by rfl

/-- What is not below zero has its whole part for a floor, up to the greatest coordinate. -/
theorem floor_eq (above : ¬ x < 0) :
    Scalar.floor x = min (x.abs.toUInt64.toNat : Int) 2147483647 := by
  change Scalar.signed x (if x < 0 ∧ _ then _ else _) = _
  rw [if_neg (fun both => above both.1), Scalar.signed, if_neg above]
  omega

/-- What is positive and below a natural number is stored with a smaller exponent, or with the same
exponent and a smaller mantissa. -/
theorem order_of_below {positive : 0 < m} (some : 0 < n) (small : n < 2 ^ 53)
    (h : unpacked x = .finite .positive m e positive) (below : ¬ Float.ofNat n ≤ x) :
    e < -padding n ∨ e = -padding n ∧ m < n * 2 ^ padding n := by
  obtain ⟨positive', exact_⟩ := unpacked_ofNat some small
  rw [le_iff_unpacked, exact_, h] at below
  by_contra more
  refine below ?_
  change ((compare (-padding n : Int) e).then (compare (n * 2 ^ padding n) m)).isLE = true
  rcases lt_trichotomy (-padding n : Int) e with less | same | great
  · rw [Int.compare_eq_lt.2 less]
    rfl
  · rw [Int.compare_eq_eq.2 same, Ordering.then, Nat.isLE_compare]
    omega
  · exact absurd (.inl great) more

/-- What is positive and not below a natural number is stored with a greater exponent, or with the
same exponent and a mantissa that is not smaller. -/
theorem order_of_above {positive : 0 < m} (some : 0 < n) (small : n < 2 ^ 53)
    (h : unpacked x = .finite .positive m e positive) (above : ¬ x < Float.ofNat n) :
    -padding n < e ∨ e = -padding n ∧ n * 2 ^ padding n ≤ m := by
  obtain ⟨positive', exact_⟩ := unpacked_ofNat some small
  rw [lt_iff_unpacked, exact_, h] at above
  by_contra less
  refine above ?_
  refine beq_iff_eq.2 (congrArg Option.some ?_)
  rcases lt_trichotomy e (-padding n : Int) with below | same | great
  · rw [Int.compare_eq_lt.2 below]
    rfl
  · rw [Int.compare_eq_eq.2 same, Ordering.then, Nat.compare_eq_lt]
    omega
  · exact absurd (.inl great) less

theorem whole_eq {positive : 0 < m} {k : Nat} (h : unpacked x = .finite .positive m (-k) positive) :
    x.abs.toUInt64.toNat = m / 2 ^ k := by
  have digits : m < 2 ^ 53 := (Stored.normal_unpack h).digits
  have fits : m / 2 ^ k ≤ m := Nat.div_le_self m _
  have same : x.abs.toUInt64 = (unpacked x.abs).toUInt64 := rfl
  rw [same, unpacked_abs, h, UnpackedFloat.abs, toNat_toUInt64 positive (by omega)]

/-- The whole part of a number below a natural number is below it too. -/
theorem whole_lt {positive : 0 < m} (some : 0 < n) (small : n < 2 ^ 53)
    (h : unpacked x = .finite .positive m e positive) (below : ¬ Float.ofNat n ≤ x) :
    x.abs.toUInt64.toNat < n := by
  obtain ⟨long, -⟩ := two_pow_padding some small
  have digits : m < 2 ^ 53 := (Stored.normal_unpack h).digits
  have order := order_of_below some small h below
  obtain ⟨k, rfl⟩ : ∃ k : Nat, e = -k := ⟨(-e).toNat, by omega⟩
  rw [whole_eq h, Nat.div_lt_iff_lt_mul (Nat.two_pow_pos k)]
  rcases order with more | ⟨same, less⟩
  · calc m < 2 ^ 53 := digits
      _ ≤ n * 2 ^ padding n * 2 := by omega
      _ = n * 2 ^ (padding n + 1) := by rw [Nat.mul_assoc, ← Nat.pow_succ]
      _ ≤ n * 2 ^ k := Nat.mul_le_mul_left _ (Nat.pow_le_pow_right Nat.two_pos (by omega))
  · have : k = padding n := by omega
    exact this ▸ less

/-- The whole part of a number that is not below a natural number is not below it either. -/
theorem le_whole {positive : 0 < m} {k : Nat} (some : 0 < n) (small : n < 2 ^ 53)
    (h : unpacked x = .finite .positive m (-k) positive) (above : ¬ x < Float.ofNat n) :
    n ≤ x.abs.toUInt64.toNat := by
  obtain ⟨-, digits⟩ := two_pow_padding some small
  rw [whole_eq h, Nat.le_div_iff_mul_le (Nat.two_pow_pos k)]
  rcases order_of_above some small h above with less | ⟨same, le⟩
  · -- A mantissa with zeros to spare is not the short one of a number near zero.
    have long : 2 ^ 52 ≤ m := by
      rcases (Stored.normal_unpack h).normal with long | least
      · exact long
      · have : Format.binary64.minExponent = -1074 := by decide
        have : padding n ≤ 52 := Nat.sub_le _ _
        omega
    calc n * 2 ^ k ≤ n * 2 ^ (padding n - 1) :=
          Nat.mul_le_mul_left _ (Nat.pow_le_pow_right Nat.two_pos (by omega))
      _ ≤ 2 ^ 52 := by
          have double : n * 2 ^ padding n = n * 2 ^ (padding n - 1) * 2 := by
            rw [Nat.mul_assoc, ← Nat.pow_succ, Nat.succ_eq_add_one, Nat.sub_add_cancel (by omega)]
          omega
      _ ≤ m := long
  · have : k = padding n := by omega
    exact this ▸ le

/-! ## Floors between coordinates -/

theorem ofCoord_eq {c : Coord} (nonneg : 0 ≤ c.toInt) :
    (Scalar.ofCoord c : Float) = Float.ofNat c.toInt.toNat := by
  obtain ⟨n, whole⟩ := Int.eq_ofNat_of_zero_le nonneg
  rw [Scalar.ofCoord, whole]
  rfl

/-- What is below zero is below every natural number. -/
theorem lt_ofNat {f : UnpackedFloat} (negative : UnpackedFloat.lt f (.zero .positive) = true)
    (small : n < 2 ^ 53) : UnpackedFloat.lt f (unpacked (Float.ofNat n)) = true := by
  rcases Nat.eq_zero_or_pos n with rfl | some
  · have zero : unpacked (Float.ofNat 0) = .zero .positive := by rfl
    rwa [zero]
  · obtain ⟨_, exact_⟩ := unpacked_ofNat some small
    rw [exact_]
    -- Only an infinity and a finite number can be below zero.
    rcases f with (_ | _) | _ | s | ⟨_ | _, m, e, positive⟩
    · rfl
    · cases negative
    · cases negative
    · cases negative
    · rfl
    · cases negative

/-- What passes the tests for two coordinates is not below the one, and not below zero. -/
theorem not_lt_of_inRange {low high : Coord} (nonneg : 0 ≤ low.toInt)
    (passed : Scalar.InRange low high x) : ¬ x < Float.ofNat low.toInt.toNat ∧ ¬ x < 0 := by
  have low_lt := low.toInt_lt
  have above := passed.1
  rw [ofCoord_eq nonneg] at above
  have above : ¬ x < Float.ofNat low.toInt.toNat := of_decide_eq_false above
  exact ⟨above, fun negative => above (lt_iff_unpacked.2
    (lt_ofNat (unpacked_zero ▸ lt_iff_unpacked.1 negative) (by omega)))⟩

theorem not_le_of_inRange {low high : Coord} (some : 0 < high.toInt)
    (passed : Scalar.InRange low high x) : ¬ Float.ofNat high.toInt.toNat ≤ x := by
  have below := passed.2
  rw [ofCoord_eq some.le] at below
  exact of_decide_eq_false below

/-- What passes the tests is zero, a positive number or not a number. -/
theorem unpacked_of_inRange {low high : Coord} (nonneg : 0 ≤ low.toInt) (some : 0 < high.toInt)
    (passed : Scalar.InRange low high x) : (∃ s, unpacked x = .zero s) ∨
      unpacked x = .notANumber ∨ ∃ m e positive, unpacked x = .finite .positive m e positive := by
  have high_lt := high.toInt_lt
  have above := (not_lt_of_inRange nonneg passed).2
  have below := not_le_of_inRange some passed
  rcases h : unpacked x with (_ | _) | _ | s | ⟨_ | _, m, e, positive⟩
  · exact absurd (lt_iff_unpacked.2 (by rw [h, unpacked_zero]; rfl)) above
  · obtain ⟨_, exact_⟩ := unpacked_ofNat (n := high.toInt.toNat) (by omega) (by omega)
    exact absurd (le_iff_unpacked.2 (by rw [h, exact_]; rfl)) below
  · exact .inr (.inl rfl)
  · exact .inl ⟨s, rfl⟩
  · exact absurd (lt_iff_unpacked.2 (by rw [h, unpacked_zero]; rfl)) above
  · exact .inr (.inr ⟨m, e, positive, rfl⟩)

/-- What passes the tests has a floor between zero and the greater coordinate. -/
theorem floor_inside {low high : Coord} (nonneg : 0 ≤ low.toInt) (some : 0 < high.toInt)
    (passed : Scalar.InRange low high x) : 0 ≤ Scalar.floor x ∧ Scalar.floor x < high.toInt := by
  have high_lt := high.toInt_lt
  have converted : x.abs.toUInt64 = (UnpackedFloat.abs (unpacked x)).toUInt64 :=
    congrArg UnpackedFloat.toUInt64 (unpacked_abs x)
  have less : x.abs.toUInt64.toNat < high.toInt.toNat := by
    rcases unpacked_of_inRange nonneg some passed with ⟨s, h⟩ | h | ⟨m, e, positive, h⟩
    · rw [converted, h]
      exact Int.pos_iff_toNat_pos.1 some
    · rw [converted, h]
      exact Int.pos_iff_toNat_pos.1 some
    · exact whole_lt (by omega) (by omega) h (not_le_of_inRange some passed)
  rw [floor_eq (not_lt_of_inRange nonneg passed).2]
  omega

/-- A number that passes the tests has a floor that is not below the lesser coordinate. -/
theorem le_floor {low high : Coord} (nonneg : 0 ≤ low.toInt) (some : 0 < high.toInt)
    (passed : Scalar.InRange low high x) (number : Scalar.IsNumber x) :
    low.toInt ≤ Scalar.floor x := by
  have low_lt := low.toInt_lt
  obtain ⟨above, above_zero⟩ := not_lt_of_inRange nonneg passed
  have le : low.toInt.toNat ≤ x.abs.toUInt64.toNat := by
    rcases Nat.eq_zero_or_pos low.toInt.toNat with none | positive_low
    · omega
    rcases unpacked_of_inRange nonneg some passed with ⟨s, h⟩ | h | ⟨m, e, positive, h⟩
    · obtain ⟨_, exact_⟩ := unpacked_ofNat positive_low (by omega)
      exact absurd (lt_iff_unpacked.2 (by rw [h, exact_]; rfl)) above
    · have same : x ≤ x := of_decide_eq_true number
      rw [le_iff_unpacked, h] at same
      cases same
    · have order := order_of_below (by omega) (by have := high.toInt_lt; omega) h
        (not_le_of_inRange some passed)
      obtain ⟨k, rfl⟩ : ∃ k : Nat, e = -k := ⟨(-e).toNat, by omega⟩
      exact le_whole positive_low (by omega) h above
  rw [floor_eq above_zero]
  omega

end Compositor.Double

namespace Compositor

instance : LawfulScalar Float where
  floor_inside := Double.floor_inside
  le_floor := Double.le_floor

end Compositor
