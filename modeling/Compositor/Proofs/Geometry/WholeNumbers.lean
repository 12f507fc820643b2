import Compositor.Proofs.Geometry.Floor

/-!
# Whole numbers in double precision

Double precision has every whole number of at most 53 binary digits. Sums, differences and products
of such numbers are exact as long as they have no more digits, and to compare or to round them is to
compare or to round integers.
-/

namespace Compositor.Double

open Float.Model Float.Model.UnpackedFloat Single

variable {f g : UnpackedFloat} {a b : Int} {m n : Nat}

/-! ## Forms -/

/-- The form of a whole number: its digits are moved to the front, and zero has either sign. -/
inductive Whole : UnpackedFloat → Int → Prop
  | zero (s : Sign) : Whole (.zero s) 0
  | padded (s : Sign) {n : Nat} (positive : 0 < n) (small : n < 2 ^ 53)
      (positive' : 0 < n * 2 ^ padding n) :
      Whole (.finite s (n * 2 ^ padding n) (-padding n) positive') (s.apply n)

theorem whole_zero (whole : Whole f 0) : ∃ s, f = .zero s := by
  generalize zero : (0 : Int) = a at whole
  obtain s | ⟨s, positive, _, _⟩ := whole
  · exact ⟨s, rfl⟩
  · cases s <;> simp only [Sign.apply] at zero <;> omega

theorem natAbs_apply (s : Sign) (n : Nat) : (s.apply n).natAbs = n := by
  cases s
  · exact Int.natAbs_neg n
  · exact Int.natAbs_natCast n

theorem apply_mul_apply (s t : Sign) (a b : Int) :
    s.apply a * t.apply b = (s * t).apply (a * b) := by
  cases s <;> cases t
  exacts [Int.neg_mul_neg a b, Int.neg_mul a b, Int.mul_neg a b, rfl]

theorem padding_anti (positive : 0 < m) (le : m ≤ n) : padding n ≤ padding m := by
  have digits : m.log2 ≤ n.log2 :=
    (Nat.le_log2 (by omega)).2 (Nat.le_trans (Nat.log2_self_le positive.ne') le)
  unfold padding
  omega

/-- An integer with zeros behind the point is brought to the form of a whole number. -/
theorem whole_normalize (small : a.natAbs < 2 ^ 53) (k : Nat) (zeroSign : Sign) :
    Whole (UnpackedFloat.normalize .binary64 (a * 2 ^ k) (-k) zeroSign) a := by
  have scale : (0 : Int) < 2 ^ k := by positivity
  rcases lt_trichotomy a 0 with negative | rfl | some
  · obtain ⟨n, rfl⟩ : ∃ n : Nat, a = -n := ⟨a.natAbs, by omega⟩
    have positive : 0 < n := by omega
    have below : compare (-(n : Int) * 2 ^ k) 0 = .lt :=
      Int.compare_eq_lt.2 (Int.mul_neg_of_neg_of_pos negative scale)
    have digits : (-(-(n : Int) * 2 ^ k)).toNat = n * 2 ^ k := by
      rw [Int.neg_mul, Int.neg_neg]
      exact_mod_cast Int.toNat_natCast (n * 2 ^ k)
    simp only [UnpackedFloat.normalize, below, digits]
    have positive' : 0 < n * 2 ^ padding n := Nat.mul_pos positive (Nat.two_pow_pos _)
    rw [round_padded .negative positive (by omega) positive' k]
    exact .padded .negative positive (by omega) positive'
  · simp only [Int.zero_mul, UnpackedFloat.normalize]
    exact .zero zeroSign
  · obtain ⟨n, rfl⟩ : ∃ n : Nat, a = n := ⟨a.natAbs, by omega⟩
    have positive : 0 < n := by omega
    have positive' : 0 < n * 2 ^ padding n := Nat.mul_pos positive (Nat.two_pow_pos _)
    have same : (n : Int) * 2 ^ k = (n * 2 ^ k : Nat) := by push_cast; rfl
    rw [same, normalize_natCast (Nat.mul_pos positive (Nat.two_pow_pos k)),
      round_padded .positive positive (by omega) positive' k]
    exact .padded .positive positive (by omega) positive'

namespace Whole

theorem stored (whole : Whole f a) : UnpackedFloat.unpack .binary64 (pack .binary64 f) = f := by
  obtain s | ⟨s, positive, small, positive'⟩ := whole
  · cases s <;> rfl
  · exact unpack_pack_padded s positive small positive'

/-! ## Arithmetic -/

theorem neg (whole : Whole f a) : Whole f.neg (-a) := by
  obtain s | ⟨s, positive, small, positive'⟩ := whole
  · exact .zero (-s)
  · have opposite := Whole.padded (-s) positive small positive'
    cases s
    · rwa [Sign.apply, Int.neg_neg]
    · exact opposite

theorem abs (whole : Whole f a) : Whole f.abs a.natAbs := by
  obtain s | @⟨s, n, positive, small, positive'⟩ := whole
  · exact .zero .positive
  · have magnitude := Whole.padded .positive positive small positive'
    rwa [natAbs_apply]

theorem add (left : Whole f a) (right : Whole g b) (small : (a + b).natAbs < 2 ^ 53) :
    Whole (UnpackedFloat.add .binary64 f g) (a + b) := by
  obtain s | @⟨s, m, positive, small₁, positive₁⟩ := left <;>
    obtain t | @⟨t, n, positive', small₂, positive₂⟩ := right
  · cases s <;> cases t <;> exact .zero _
  · rw [Int.zero_add]
    exact .padded t positive' small₂ positive₂
  · rw [Int.add_zero]
    exact .padded s positive small₁ positive₁
  -- Both numbers get as many zeros behind the point as the one that needs more of them.
  · have least : min (-padding m : Int) (-padding n) = -(max (padding m) (padding n) : Nat) := by
      omega
    have aligned (s : Sign) (n k : Nat) (le : padding n ≤ k) :
        s.apply ((n * 2 ^ padding n) <<< (-(padding n : Int) - -k).toNat : Nat) =
          s.apply n * 2 ^ k := by
      have zeros : (-(padding n : Int) - -k).toNat = k - padding n := by omega
      rw [zeros, Nat.shiftLeft_eq, Nat.mul_assoc, ← Nat.pow_add, Nat.add_sub_cancel' le]
      cases s <;> simp [Sign.apply]
    have sum := whole_normalize small (max (padding m) (padding n)) .positive
    rw [Int.add_mul, ← aligned s m _ (le_max_left ..), ← aligned t n _ (le_max_right ..)] at sum
    simpa only [UnpackedFloat.add, decreaseExponent, least] using sum

theorem sub (left : Whole f a) (right : Whole g b) (small : (a - b).natAbs < 2 ^ 53) :
    Whole (UnpackedFloat.sub .binary64 f g) (a - b) := by
  have same : UnpackedFloat.sub .binary64 f g = UnpackedFloat.add .binary64 f g.neg := by
    obtain s | ⟨s, positive, _, _⟩ := left <;> obtain t | ⟨t, positive', _, _⟩ := right
    · rfl
    · rfl
    · rfl
    · cases s <;> cases t <;>
        simp [UnpackedFloat.sub, UnpackedFloat.add, UnpackedFloat.neg, Sign.apply,
          Int.sub_eq_add_neg]
  rw [same, Int.sub_eq_add_neg]
  exact left.add right.neg (by omega)

theorem mul (left : Whole f a) (right : Whole g b) (small : (a * b).natAbs < 2 ^ 53) :
    Whole (UnpackedFloat.mul .binary64 f g) (a * b) := by
  obtain s | @⟨s, m, positive, small₁, positive₁⟩ := left <;>
    obtain t | @⟨t, n, positive', small₂, positive₂⟩ := right
  · exact .zero (s * t)
  · rw [Int.zero_mul]
    exact .zero (s * t)
  · rw [Int.mul_zero]
    exact .zero (s * t)
  · have signed : s.apply m * t.apply n = (s * t).apply (m * n : Nat) := by
      rw [apply_mul_apply, Int.natCast_mul]
    have some : 0 < m * n := Nat.mul_pos positive positive'
    have digits : m * n < 2 ^ 53 := by rwa [signed, natAbs_apply] at small
    have positive₃ : 0 < m * n * 2 ^ padding (m * n) := Nat.mul_pos some (Nat.two_pow_pos _)
    have fewer := padding_anti positive (Nat.le_mul_of_pos_right m positive')
    have exact_ := roundWithAccuracy_exact (s * t) (normal_padded some digits) positive₃
      (padding m + padding n - padding (m * n))
    have product : m * 2 ^ padding m * (n * 2 ^ padding n) =
        m * n * 2 ^ padding (m * n) * 2 ^ (padding m + padding n - padding (m * n)) := by
      rw [Nat.mul_assoc (m * n), ← Nat.pow_add, Nat.add_sub_cancel' (by omega), Nat.pow_add]
      ring
    have exponent : (-padding m + -padding n : Int) =
        -padding (m * n) - (padding m + padding n - padding (m * n) : Nat) := by
      omega
    rw [signed, UnpackedFloat.mul, product, exponent, exact_]
    exact .padded (s * t) some digits positive₃

/-! ## Order and whole parts -/

theorem compare_padded (positive : 0 < m) (small : m < 2 ^ 53) (positive' : 0 < n)
    (small' : n < 2 ^ 53) :
    (compare (-padding m : Int) (-padding n)).then
      (compare (m * 2 ^ padding m) (n * 2 ^ padding n)) = compare m n := by
  have less {m n : Nat} (positive : 0 < m) (small : n < 2 ^ 53) (less : m < n) :
      (compare (-padding m : Int) (-padding n)).then
        (compare (m * 2 ^ padding m) (n * 2 ^ padding n)) = .lt := by
    rcases Nat.lt_or_eq_of_le (padding_anti positive less.le) with fewer | same
    · rw [Int.compare_eq_lt.2 (by omega)]
      rfl
    · rw [same, Int.compare_eq_eq.2 rfl, Ordering.then]
      exact Nat.compare_eq_lt.2 (Nat.mul_lt_mul_of_pos_right less (Nat.two_pow_pos _))
  rcases Nat.lt_trichotomy m n with below | rfl | above
  · rw [less positive small' below, Nat.compare_eq_lt.2 below]
  · rw [Int.compare_eq_eq.2 rfl, Nat.compare_eq_eq.2 rfl, Nat.compare_eq_eq.2 rfl]
    rfl
  · rw [Nat.compare_eq_gt.2 above, ← Int.compare_swap, ← Nat.compare_swap, ← Ordering.swap_then,
      less positive' small above]
    rfl

theorem lt_iff (left : Whole f a) (right : Whole g b) :
    UnpackedFloat.lt f g = true ↔ a < b := by
  have ordered (o : Ordering) : (some o == some Ordering.lt) = true ↔ o = .lt := by
    cases o <;> decide
  obtain s | @⟨s, m, positive, small₁, positive₁⟩ := left <;>
    obtain t | @⟨t, n, positive', small₂, positive₂⟩ := right
  · exact iff_of_false Bool.false_ne_true (lt_irrefl 0)
  · cases t
    · exact iff_of_false Bool.false_ne_true (by simp only [Sign.apply]; omega)
    · exact iff_of_true rfl (by simp only [Sign.apply]; omega)
  · cases s
    · exact iff_of_true rfl (by simp only [Sign.apply]; omega)
    · exact iff_of_false Bool.false_ne_true (by simp only [Sign.apply]; omega)
  · have magnitudes := compare_padded positive small₁ positive' small₂
    cases s <;> cases t
    · simp only [UnpackedFloat.lt, UnpackedFloat.compare, ordered, Sign.apply, magnitudes,
        Nat.compare_swap, Nat.compare_eq_lt]
      omega
    · exact iff_of_true rfl (by simp only [Sign.apply]; omega)
    · exact iff_of_false Bool.false_ne_true (by simp only [Sign.apply]; omega)
    · simp only [UnpackedFloat.lt, UnpackedFloat.compare, ordered, Sign.apply, magnitudes,
        Nat.compare_eq_lt]
      omega

theorem toNat_toUInt64 (whole : Whole f a) (nonneg : 0 ≤ a) : f.toUInt64.toNat = a.toNat := by
  obtain s | @⟨s, n, positive, small, positive'⟩ := whole
  · rfl
  · cases s
    · simp only [Sign.apply] at nonneg
      omega
    · rw [Double.toNat_toUInt64 positive', Nat.mul_div_cancel _ (Nat.two_pow_pos _)]
      · rfl
      · rw [Nat.mul_div_cancel _ (Nat.two_pow_pos _)]
        omega

end Whole

/-! ## Floats -/

variable {x : Float}

theorem whole_toFloat (word : UInt64) (small : word.toNat < 2 ^ 53) :
    Whole (unpacked word.toFloat) word.toNat := by
  rcases Nat.eq_zero_or_pos word.toNat with zero | positive
  · obtain rfl : word = 0 := UInt64.toNat_inj.1 zero
    exact .zero .positive
  · have positive' : 0 < word.toNat * 2 ^ padding word.toNat :=
      Nat.mul_pos positive (Nat.two_pow_pos _)
    rw [unpacked_toFloat word positive small positive']
    exact .padded .positive positive small positive'

theorem whole_ofNat (small : n < 2 ^ 53) : Whole (unpacked (Float.ofNat n)) n := by
  rcases Nat.eq_zero_or_pos n with rfl | positive
  · exact .zero .positive
  · obtain ⟨positive', exact_⟩ := unpacked_ofNat positive small
    rw [exact_]
    exact .padded .positive positive small positive'

theorem whole_ofInt (small : a.natAbs < 2 ^ 53) : Whole (unpacked (Float.ofInt a)) a := by
  obtain n | n := a
  · exact whole_ofNat small
  · have opposite := (whole_ofNat (n := n + 1) small).neg
    have same : unpacked (Float.ofInt (.negSucc n)) = UnpackedFloat.unpack .binary64
        (pack .binary64 (UnpackedFloat.neg (unpacked (Float.ofNat (n + 1))))) := rfl
    rw [same, opposite.stored]
    exact opposite

/-- A whole number has nothing behind the point, so it is rounded to itself. -/
theorem saturate_round (whole : Whole (unpacked x) a) (small : a.natAbs < 2 ^ 53) :
    Coord.saturate (Scalar.round x) = Coord.saturate a := by
  have magnitude : Whole (unpacked x.abs) a.natAbs := by
    rw [unpacked_abs]
    exact whole.abs
  have part : x.abs.toUInt64.toNat = a.natAbs :=
    magnitude.toNat_toUInt64 (Int.natCast_nonneg _)
  have nothing : ¬ 0.5 ≤ x.abs - x.abs.toUInt64.toFloat := by
    have word := whole_toFloat x.abs.toUInt64 (by omega)
    rw [part] at word
    have rest := magnitude.sub word (by rw [Int.sub_self]; decide)
    rw [Int.sub_self] at rest
    have same : unpacked (x.abs - x.abs.toUInt64.toFloat) = UnpackedFloat.unpack .binary64
        (pack .binary64 (UnpackedFloat.sub .binary64 (unpacked x.abs)
          (unpacked x.abs.toUInt64.toFloat))) := rfl
    rw [rest.stored] at same
    obtain ⟨s, zero⟩ := whole_zero rest
    rw [le_iff_unpacked, same, zero]
    cases s <;> decide
  have negative : x < 0 ↔ a < 0 :=
    lt_iff_unpacked.trans (whole.lt_iff (.zero .positive))
  change Coord.saturate (Scalar.signed x (if 0.5 ≤ x.abs - x.abs.toUInt64.toFloat then _
    else x.abs.toUInt64.toNat)) = _
  rw [if_neg nothing, part, Scalar.signed, ← Int32.toInt_inj, Coord.toInt_saturate,
    Coord.toInt_saturate]
  simp only [negative]
  split <;> omega

end Compositor.Double
