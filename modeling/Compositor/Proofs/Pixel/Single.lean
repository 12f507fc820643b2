import Compositor.Proofs.Pixel.Stored

/-!
# Single precision

The numbers of single precision that are not negative are counted in units of the least of them,
2⁻¹⁴⁹. A sum or a product is rounded to the nearest number, halves to the even mantissa: in units,
to 24 binary digits. Rounding keeps the order, so whatever is put together from sums and products of
numbers that are not negative keeps it too.
-/

namespace Compositor.Single

open Float.Model Float.Model.UnpackedFloat

/-! ## Rounding natural numbers -/

/-- The quotient by a power of two, rounded to nearest; halves go to the even quotient. -/
def quotient (n k : Nat) : Nat :=
  if 2 * (n % 2 ^ k) < 2 ^ k then n / 2 ^ k
  else if 2 ^ k < 2 * (n % 2 ^ k) then n / 2 ^ k + 1
  else n / 2 ^ k + n / 2 ^ k % 2

/-- The binary digits beyond the first 24. -/
def surplus (n : Nat) : Nat := n.log2 + 1 - 24

/-- The nearest number of 24 binary digits. -/
def nearest (n : Nat) : Nat := quotient n (surplus n) * 2 ^ surplus n

variable {m n k : Nat}

theorem le_quotient (n k : Nat) : n / 2 ^ k ≤ quotient n k := by
  unfold quotient
  split_ifs <;> omega

theorem quotient_le (n k : Nat) : quotient n k ≤ n / 2 ^ k + 1 := by
  unfold quotient
  split_ifs <;> omega

@[simp] theorem quotient_zero (n : Nat) : quotient n 0 = n := by
  simp [quotient, Nat.mod_one]

theorem quotient_mono (le : m ≤ n) : quotient m k ≤ quotient n k := by
  have whole : m / 2 ^ k ≤ n / 2 ^ k := Nat.div_le_div_right le
  rcases Nat.lt_or_eq_of_le whole with less | same
  · have := quotient_le m k
    have := le_quotient n k
    omega
  · have left := Nat.div_add_mod m (2 ^ k)
    have right := Nat.div_add_mod n (2 ^ k)
    rw [same] at left
    unfold quotient
    split_ifs <;> omega

/-- More digits on both sides change nothing. -/
theorem quotient_scale (n k a : Nat) : quotient (n * 2 ^ a) (k + a) = quotient n k := by
  have positive : 0 < 2 ^ a := Nat.two_pow_pos a
  have less : 2 * (n % 2 ^ k * 2 ^ a) < 2 ^ k * 2 ^ a ↔ 2 * (n % 2 ^ k) < 2 ^ k := by
    rw [← Nat.mul_assoc]
    exact Nat.mul_lt_mul_right positive
  have more : 2 ^ k * 2 ^ a < 2 * (n % 2 ^ k * 2 ^ a) ↔ 2 ^ k < 2 * (n % 2 ^ k) := by
    rw [← Nat.mul_assoc]
    exact Nat.mul_lt_mul_right positive
  simp only [quotient, Nat.pow_add, Nat.mul_mod_mul_right, Nat.mul_div_mul_right _ _ positive,
    less, more]

theorem lt_of_surplus (n : Nat) : n < 2 ^ (surplus n + 24) := by
  refine Nat.lt_of_lt_of_le Nat.lt_log2_self (Nat.pow_le_pow_right Nat.two_pos ?_)
  unfold surplus
  omega

theorem le_of_surplus (some : 0 < surplus n) : 2 ^ (surplus n + 23) ≤ n := by
  have positive : n ≠ 0 := by
    rintro rfl
    simp [surplus] at some
  have same : surplus n + 23 = n.log2 := by
    unfold surplus at some ⊢
    omega
  exact same ▸ Nat.log2_self_le positive

theorem surplus_mono (le : m ≤ n) : surplus m ≤ surplus n := by
  by_contra less
  have low := le_of_surplus (n := m) (by omega)
  have high := lt_of_surplus n
  have power : 2 ^ (surplus n + 24) ≤ 2 ^ (surplus m + 23) :=
    Nat.pow_le_pow_right Nat.two_pos (by omega)
  omega

theorem quotient_surplus_le (n : Nat) : quotient n (surplus n) ≤ 2 ^ 24 := by
  have digits : n / 2 ^ surplus n < 2 ^ 24 := by
    rw [Nat.div_lt_iff_lt_mul (Nat.two_pow_pos _), ← Nat.pow_add, Nat.add_comm]
    exact lt_of_surplus n
  have := quotient_le n (surplus n)
  omega

theorem le_quotient_surplus (some : 0 < surplus n) : 2 ^ 23 ≤ quotient n (surplus n) := by
  have digits : 2 ^ 23 ≤ n / 2 ^ surplus n := by
    rw [Nat.le_div_iff_mul_le (Nat.two_pow_pos _), ← Nat.pow_add, Nat.add_comm]
    exact le_of_surplus some
  exact Nat.le_trans digits (le_quotient n _)

/-- Rounding keeps the order, also from one power of two to the next. -/
theorem nearest_mono (le : m ≤ n) : nearest m ≤ nearest n := by
  have digits := surplus_mono le
  rcases Nat.lt_or_eq_of_le digits with less | same
  · calc nearest m ≤ 2 ^ 24 * 2 ^ surplus m := Nat.mul_le_mul_right _ (quotient_surplus_le m)
      _ = 2 ^ (surplus m + 24) := by rw [← Nat.pow_add, Nat.add_comm]
      _ ≤ 2 ^ (surplus n + 23) := Nat.pow_le_pow_right Nat.two_pos (by omega)
      _ = 2 ^ 23 * 2 ^ surplus n := by rw [← Nat.pow_add, Nat.add_comm]
      _ ≤ nearest n := Nat.mul_le_mul_right _ (le_quotient_surplus (by omega))
  · unfold nearest
    rw [same]
    exact Nat.mul_le_mul_right _ (quotient_mono le)

/-- A number whose digits beyond the first 24 are zero is not rounded. -/
theorem nearest_eq {a : Nat} (digits : n < 2 ^ 24) : nearest (n * 2 ^ a) = n * 2 ^ a := by
  have exact_ : 2 ^ surplus (n * 2 ^ a) ∣ n * 2 ^ a := by
    by_cases none : surplus (n * 2 ^ a) = 0
    · simp [none]
    · have low := le_of_surplus (n := n * 2 ^ a) (by omega)
      have less : 2 ^ (surplus (n * 2 ^ a) + 23) < 2 ^ (24 + a) := by
        refine Nat.lt_of_le_of_lt low ?_
        rw [Nat.pow_add]
        exact Nat.mul_lt_mul_of_pos_right digits (Nat.two_pow_pos a)
      have := (Nat.pow_lt_pow_iff_right (by omega)).1 less
      exact Nat.dvd_mul_left_of_dvd (Nat.pow_dvd_pow 2 (by omega)) n
  unfold nearest quotient
  rw [Nat.mod_eq_zero_of_dvd exact_, if_pos (by simp), Nat.div_mul_cancel exact_]

/-! ## Rounding mantissas -/

/-- Shifting keeps what rounding has to know of the digits that go. -/
theorem shift_exact (m k : Nat) : ExtendedMantissa.ofMantissaAndAccuracy m .exact >>> k =
    ⟨m / 2 ^ k, 2 ^ k ≤ 2 * (m % 2 ^ k), 2 * (m % 2 ^ k) ≠ 2 ^ k ∧ m % 2 ^ k ≠ 0⟩ := by
  induction k with
  | zero =>
    simp [HShiftRight.hShiftRight, Nat.repeat, ExtendedMantissa.ofMantissaAndAccuracy, Nat.mod_one]
  | succ k ih =>
    change (ExtendedMantissa.ofMantissaAndAccuracy m .exact >>> k).shiftRightOne = _
    rw [ih, ExtendedMantissa.shiftRightOne]
    have digit := Nat.mod_pow_succ (b := 2) (x := m) (k := k)
    have low := Nat.mod_lt m (Nat.two_pow_pos k)
    have half : (m / 2 ^ k % 2 != 0) = decide (2 ^ (k + 1) ≤ 2 * (m % 2 ^ (k + 1))) := by
      rw [digit, Nat.pow_succ', Bool.eq_iff_iff, bne_iff_ne, decide_eq_true_eq]
      rcases Nat.mod_two_eq_zero_or_one (m / 2 ^ k) with zero | one
      · rw [zero]
        omega
      · rw [one]
        omega
    have rest : (decide (2 ^ k ≤ 2 * (m % 2 ^ k)) ||
        decide (2 * (m % 2 ^ k) ≠ 2 ^ k ∧ m % 2 ^ k ≠ 0)) =
          decide (2 * (m % 2 ^ (k + 1)) ≠ 2 ^ (k + 1) ∧ m % 2 ^ (k + 1) ≠ 0) := by
      rw [digit, Nat.pow_succ', Bool.eq_iff_iff, Bool.or_eq_true, decide_eq_true_eq,
        decide_eq_true_eq, decide_eq_true_eq]
      rcases Nat.mod_two_eq_zero_or_one (m / 2 ^ k) with zero | one
      · rw [zero]
        omega
      · rw [one]
        omega
    rw [half, rest, Nat.div_div_eq_div_mul, Nat.pow_succ]

theorem roundedMantissa_shift (m k : Nat) :
    (ExtendedMantissa.ofMantissaAndAccuracy m .exact >>> k).roundedMantissa = quotient m k := by
  have low := Nat.mod_lt m (Nat.two_pow_pos k)
  rw [shift_exact, ExtendedMantissa.roundedMantissa, quotient]
  cases half : decide (2 ^ k ≤ 2 * (m % 2 ^ k)) <;>
    cases rest : decide (2 * (m % 2 ^ k) ≠ 2 ^ k ∧ m % 2 ^ k ≠ 0) <;>
    simp only [ExtendedMantissa.accuracy, Accuracy.roundToNearestEven] <;>
    simp only [decide_eq_true_eq, decide_eq_false_iff_not] at half rest <;>
    split_ifs <;> omega

/-! ## Counting units -/

/-- A mantissa and an exponent as single precision stores them: the mantissa has 24 digits, or fewer
with the least exponent. -/
structure Normal (m : Nat) (e : Int) : Prop where
  digits : m < 2 ^ 24
  low : -149 ≤ e
  normal : 2 ^ 23 ≤ m ∨ e = -149

/-- A stored number that is not negative, and how many units it has. -/
def Counts : UnpackedFloat → Nat → Prop
  | .zero _, n => n = 0
  | .finite .positive m e _, n => Normal m e ∧ n = m * 2 ^ (e + 149).toNat
  | _, _ => False

theorem log2_mul_pow (positive : n ≠ 0) (a : Nat) : (n * 2 ^ a).log2 = n.log2 + a := by
  have scaled : n * 2 ^ a ≠ 0 := Nat.mul_ne_zero positive (Nat.two_pow_pos a).ne'
  rw [Nat.log2_eq_iff scaled, Nat.add_right_comm, Nat.pow_add, Nat.pow_add]
  exact ⟨Nat.mul_le_mul_right _ (Nat.log2_self_le positive),
    Nat.mul_lt_mul_of_pos_right Nat.lt_log2_self (Nat.two_pow_pos a)⟩

/-- The exponent that a mantissa of so many digits has in single precision. -/
theorem targetExponent_eq (m : Nat) (e : Int) :
    Format.binary32.targetExponent (totalExponent m e) = max (m.log2 + 1 + e - 24) (-149) := rfl

/-- Rounding shifts a mantissa once, and once more if it got a digit too many. -/
theorem roundWithAccuracy_eq {s : Sign} {m : Nat} {e t : Int} {r j : Nat} (positive : 0 < r / 2 ^ j)
    (target : Format.binary32.targetExponent (totalExponent m e) = t) (fits : e ≤ t)
    (rounded : quotient m (t - e).toNat = r)
    (again : (Format.binary32.targetExponent (totalExponent r t) - t).toNat = j) :
    roundWithAccuracy .binary32 s m e .exact = .finite s (r / 2 ^ j) (t + j) positive := by
  have first : shiftToTargetExponent .binary32 m e .exact =
      (ExtendedMantissa.ofMantissaAndAccuracy m .exact >>> (t - e).toNat, t) := by
    rw [shiftToTargetExponent, target, shiftToExponent]
    simp only [Prod.mk.injEq, true_and]
    omega
  have second : shiftToTargetExponent .binary32 r t .exact =
      (ExtendedMantissa.ofMantissaAndAccuracy r .exact >>> j, t + j) := by
    rw [shiftToTargetExponent, shiftToExponent, again]
  rw [roundWithAccuracy, first]
  simp only [roundedMantissa_shift, rounded, second]
  simp only [shift_exact, positive.ne', ↓reduceDIte]

/-- An exact value is rounded to the nearest number; `a` and `b` say how the mantissa is scaled. -/
theorem counts_roundWithAccuracy {a b : Nat} {e : Int} (positive : 0 < m)
    (same : n * 2 ^ a = m * 2 ^ b) (place : (b : Int) = e + 149 + a)
    (fits : e ≤ Format.binary32.targetExponent (totalExponent m e)) :
    Counts (roundWithAccuracy .binary32 .positive m e .exact) (nearest n) := by
  have some : n ≠ 0 := by
    rintro rfl
    rw [Nat.zero_mul] at same
    have := Nat.mul_pos positive (Nat.two_pow_pos b)
    omega
  have digits : n.log2 + a = m.log2 + b := by
    rw [← log2_mul_pow some, same, log2_mul_pow positive.ne']
  obtain ⟨t, target⟩ : ∃ t, Format.binary32.targetExponent (totalExponent m e) = t := ⟨_, rfl⟩
  have units : t + 149 = surplus n := by
    rw [← target, targetExponent_eq, surplus]
    omega
  rw [target] at fits
  have rounded : quotient m (t - e).toNat = quotient n (surplus n) := by
    rw [← quotient_scale m _ b, ← same, ← quotient_scale n (surplus n) a]
    congr 1
    omega
  have most := quotient_surplus_le n
  have least (more : 0 < surplus n) := le_quotient_surplus more
  have low : 0 < quotient n (surplus n) := by
    by_cases none : surplus n = 0
    · rw [none, quotient_zero]
      exact Nat.pos_of_ne_zero some
    · exact Nat.lt_of_lt_of_le (by norm_num) (least (by omega))
  unfold nearest
  generalize quotient n (surplus n) = r at *
  rcases Nat.lt_or_eq_of_le most with short | full
  · have again : (Format.binary32.targetExponent (totalExponent r t) - t).toNat = 0 := by
      have := (Nat.log2_lt low.ne').2 short
      rw [targetExponent_eq]
      omega
    rw [roundWithAccuracy_eq (by simpa using low) target fits rounded again]
    simp only [Nat.pow_zero, Nat.div_one, Counts]
    refine ⟨⟨short, by omega, ?_⟩, ?_⟩
    · by_cases none : surplus n = 0
      · exact .inr (by omega)
      · exact .inl (least (by omega))
    · congr 2
      omega
  · subst full
    have again : (Format.binary32.targetExponent (totalExponent (2 ^ 24) t) - t).toNat = 1 := by
      rw [targetExponent_eq, Nat.log2_two_pow]
      omega
    rw [roundWithAccuracy_eq (by norm_num) target fits rounded again]
    refine ⟨⟨by norm_num, by omega, .inl (by norm_num)⟩, ?_⟩
    have more : (t + (1 : Nat) + 149).toNat = surplus n + 1 := by omega
    rw [more, Nat.pow_succ]
    omega

/-- A number in units is rounded to the nearest number, whatever exponent it is given with. -/
theorem counts_round {e : Int} (positive : 0 < m) (low : -149 ≤ e) :
    Counts (UnpackedFloat.round .binary32 .positive m e)
      (nearest (m * 2 ^ (e + 149).toNat)) := by
  obtain ⟨d, shift⟩ : ∃ d, (e - Format.binary32.targetExponent (totalExponent m e)).toNat = d :=
    ⟨_, rfl⟩
  have scaled : 0 < m * 2 ^ d := Nat.mul_pos positive (Nat.two_pow_pos d)
  simp only [UnpackedFloat.round, decreaseExponent, shift, Nat.shiftLeft_eq]
  rw [targetExponent_eq] at shift
  have digits := log2_mul_pow positive.ne' d
  refine counts_roundWithAccuracy (a := 0) (b := (e - d + 149).toNat) scaled ?_ ?_ ?_
  · have split : (e + 149).toNat = d + (e - d + 149).toNat := by omega
    rw [Nat.pow_zero, Nat.mul_one, split, Nat.pow_add, Nat.mul_assoc]
  · omega
  · rw [targetExponent_eq]
    omega

/-! ## Sums and products -/

variable {f g : UnpackedFloat}

/-- A natural number, as a mantissa with an exponent, is rounded like any other. -/
theorem normalize_natCast {spec : Format} (positive : 0 < m) (e : Int) (zero : Sign) :
    UnpackedFloat.normalize spec (m : Int) e zero =
      UnpackedFloat.round spec .positive m e := by
  have sign : compare (m : Int) 0 = .gt := by
    rw [Int.compare_eq_gt]
    omega
  simp only [UnpackedFloat.normalize, sign, Int.toNat_natCast]

theorem counts_add (left : Counts f m) (right : Counts g n) (some : 0 < n) :
    Counts (UnpackedFloat.add .binary32 f g) (nearest (m + n)) := by
  obtain _ | _ | s | ⟨_ | _, mg, eg, mg_pos⟩ := g <;> try exact right.elim
  · exact absurd right some.ne'
  obtain ⟨normalG, rfl⟩ := right
  obtain _ | _ | s | ⟨_ | _, mf, ef, mf_pos⟩ := f <;> try exact left.elim
  · cases left
    rw [Nat.zero_add, nearest_eq normalG.digits]
    exact ⟨normalG, rfl⟩
  · obtain ⟨normalF, rfl⟩ := left
    have low : -149 ≤ min ef eg := by
      have := normalF.low
      have := normalG.low
      omega
    have scaled (e : Int) (m : Nat) (le : min ef eg ≤ e) :
        m <<< (e - min ef eg).toNat * 2 ^ (min ef eg + 149).toNat = m * 2 ^ (e + 149).toNat := by
      rw [Nat.shiftLeft_eq, Nat.mul_assoc, ← Nat.pow_add]
      congr 2
      omega
    have positive : 0 < mf <<< (ef - min ef eg).toNat + mg <<< (eg - min ef eg).toNat := by
      rw [Nat.shiftLeft_eq]
      exact Nat.add_pos_left (Nat.mul_pos mf_pos (Nat.two_pow_pos _)) _
    have rounded := counts_round positive low
    rw [Nat.add_mul, scaled ef mf (by omega), scaled eg mg (by omega)] at rounded
    rw [← normalize_natCast positive _ .positive] at rounded
    exact rounded

/-- A product by a number of units; as a mantissa, the number has all its digits. -/
theorem counts_mul {c p : Nat} (left : Counts f m) (digits : 2 ^ 23 ≤ c * 2 ^ p)
    (positive : 0 < c * 2 ^ p) :
    Counts (UnpackedFloat.mul .binary32 f (.finite .positive (c * 2 ^ p) (-p) positive))
      (nearest (c * m)) := by
  obtain _ | _ | s | ⟨_ | _, mf, ef, mf_pos⟩ := f <;> try exact left.elim
  · cases left
    rw [Nat.mul_zero]
    rfl
  · obtain ⟨normal, rfl⟩ := left
    have low := normal.low
    have product : 0 < mf * (c * 2 ^ p) := Nat.mul_pos mf_pos positive
    have long : 23 ≤ (mf * (c * 2 ^ p)).log2 :=
      (Nat.le_log2 product.ne').2 (Nat.le_trans digits (Nat.le_mul_of_pos_left _ mf_pos))
    refine counts_roundWithAccuracy (a := p) (b := (ef + 149).toNat) product (by ring) ?_ ?_
    · omega
    · rw [targetExponent_eq]
      omega

/-! ## Storing and comparing -/

/-- A number that is not too great is stored as it is. -/
theorem unpack_pack (counts : Counts f n) (small : n < 2 ^ 277) :
    UnpackedFloat.unpack .binary32 (pack .binary32 f) = f := by
  obtain _ | _ | s | ⟨_ | _, m, e, positive⟩ := f <;> try exact counts.elim
  · cases s <;> rfl
  obtain ⟨⟨digits, low, normal⟩, rfl⟩ := counts
  have high : e ≤ 104 := by
    by_contra great
    have long : 2 ^ 23 ≤ m := by omega
    have power : 2 ^ 254 ≤ 2 ^ (e + 149).toNat := Nat.pow_le_pow_right Nat.two_pos (by omega)
    have := Nat.mul_le_mul long power
    omega
  refine Stored.unpack_pack .positive positive ⟨digits, low, normal⟩ ?_
  have bias : ((Format.binary32.exponentBias : Nat) : Int) = 127 := rfl
  rw [bias]
  norm_num
  omega

/-- Every number is stored in normal form. -/
theorem normal_unpack {b : BitVec 32} {s : Sign} {e : Int} {positive : 0 < m}
    (h : UnpackedFloat.unpack .binary32 b = .finite s m e positive) : Normal m e := by
  obtain ⟨digits, low, normal⟩ := Stored.normal_unpack h
  exact ⟨digits, low, normal⟩

theorem units_lt {e e' : Int} (left : Normal m e) (right : Normal n e') (less : e < e') :
    m * 2 ^ (e + 149).toNat < n * 2 ^ (e' + 149).toNat := by
  have low := left.low
  have long : 2 ^ 23 ≤ n := right.normal.resolve_right (by omega)
  calc m * 2 ^ (e + 149).toNat < 2 ^ 24 * 2 ^ (e + 149).toNat :=
        Nat.mul_lt_mul_of_pos_right left.digits (Nat.two_pow_pos _)
    _ = 2 ^ 23 * 2 ^ (e + 150).toNat := by
        have more : (e + 150).toNat = (e + 149).toNat + 1 := by omega
        rw [more, Nat.pow_succ]
        ring
    _ ≤ n * 2 ^ (e' + 149).toNat :=
        Nat.mul_le_mul long (Nat.pow_le_pow_right Nat.two_pos (by omega))

/-- Exponents are compared first and then mantissas, which comes to comparing units. -/
theorem compare_units {e e' : Int} (left : Normal m e) (right : Normal n e') :
    (compare e e').then (compare m n) =
      compare (m * 2 ^ (e + 149).toNat) (n * 2 ^ (e' + 149).toNat) := by
  rcases Int.lt_trichotomy e e' with less | same | more
  · rw [Int.compare_eq_lt.2 less, Nat.compare_eq_lt.2 (units_lt left right less)]
    rfl
  · subst same
    have scale : 0 < 2 ^ (e + 149).toNat := Nat.two_pow_pos _
    rw [Int.compare_eq_eq.2 rfl, Ordering.then]
    rcases Nat.lt_trichotomy m n with less | same | more
    · rw [Nat.compare_eq_lt.2 less, Nat.compare_eq_lt.2 (Nat.mul_lt_mul_of_pos_right less scale)]
    · rw [same, Nat.compare_eq_eq.2 rfl, Nat.compare_eq_eq.2 rfl]
    · rw [Nat.compare_eq_gt.2 more, Nat.compare_eq_gt.2 (Nat.mul_lt_mul_of_pos_right more scale)]
  · rw [Int.compare_eq_gt.2 more, Nat.compare_eq_gt.2 (units_lt right left more)]
    rfl

/-- Stored numbers are compared as their units are. -/
theorem compare_counts (left : Counts f m) (right : Counts g n) :
    UnpackedFloat.compare f g = some (compare m n) := by
  obtain _ | _ | s | ⟨_ | _, mf, ef, mf_pos⟩ := f <;> try exact left.elim
  · cases left
    obtain _ | _ | s' | ⟨_ | _, mg, eg, mg_pos⟩ := g <;> try exact right.elim
    · cases right
      rfl
    · obtain ⟨-, rfl⟩ := right
      rw [Nat.compare_eq_lt.2 (Nat.mul_pos mg_pos (Nat.two_pow_pos _))]
      rfl
  · obtain ⟨normalF, rfl⟩ := left
    obtain _ | _ | s' | ⟨_ | _, mg, eg, mg_pos⟩ := g <;> try exact right.elim
    · cases right
      rw [Nat.compare_eq_gt.2 (Nat.mul_pos mf_pos (Nat.two_pow_pos _))]
      rfl
    · obtain ⟨normalG, rfl⟩ := right
      exact congrArg some (compare_units normalF normalG)

theorem le_iff_counts (left : Counts f m) (right : Counts g n) :
    UnpackedFloat.le f g = true ↔ m ≤ n := by
  rw [UnpackedFloat.le, compare_counts left right]
  exact Nat.isLE_compare

theorem lt_iff_counts (left : Counts f m) (right : Counts g n) :
    UnpackedFloat.lt f g = true ↔ m < n := by
  rw [UnpackedFloat.lt, compare_counts left right, ← Nat.compare_eq_lt]
  simp

/-! ## Whole numbers -/

/-- A byte is the whole part of a number that is not too great. -/
theorem toNat_toUInt8 (counts : Counts f n) (small : n < 256 * 2 ^ 149) :
    f.toUInt8.toNat = n / 2 ^ 149 := by
  obtain _ | _ | s | ⟨_ | _, m, e, positive⟩ := f <;> try exact counts.elim
  · cases counts
    rfl
  · obtain ⟨⟨-, low, -⟩, rfl⟩ := counts
    have whole : roundToInt .positive m e = (m * 2 ^ (e + 149).toNat / 2 ^ 149 : Nat) := by
      have shifted : (m <<< (e - 0).toNat) / 2 ^ (0 - (e - (e - 0).toNat)).toNat =
          m * 2 ^ (e + 149).toNat / 2 ^ 149 := by
        rw [Nat.shiftLeft_eq]
        rcases Int.le_total 0 e with right | left
        · have none : (0 - (e - (e - 0).toNat)).toNat = 0 := by omega
          have scale : (e + 149).toNat = (e - 0).toNat + 149 := by omega
          rw [none, Nat.pow_zero, Nat.div_one, scale, Nat.pow_add, ← Nat.mul_assoc,
            Nat.mul_div_cancel _ (Nat.two_pow_pos _)]
        · have none : (e - 0).toNat = 0 := by omega
          have scale : 149 = (0 - (e - (0 : Nat))).toNat + (e + 149).toNat := by omega
          rw [none, Nat.pow_zero, Nat.mul_one]
          conv_rhs => rw [scale, Nat.pow_add]
          rw [Nat.mul_div_mul_right _ _ (Nat.two_pow_pos _)]
      simp only [roundToInt, decreaseExponent, shiftToExponent, shift_exact, shifted]
      rfl
    have fits : m * 2 ^ (e + 149).toNat / 2 ^ 149 < UInt8.size :=
      Nat.div_lt_of_lt_mul (Nat.mul_comm 256 _ ▸ small)
    rw [UnpackedFloat.toUInt8, UnpackedFloat.toInt, whole, Int.toNat_natCast, UInt8.ofNatClamp,
      dif_pos fits, UInt8.toNat_ofNatLT]

end Compositor.Single
