import Compositor.Fault

/-!
# Pixel coordinates

A coordinate is a 32-bit signed word, read through `toInt`. Sums and differences saturate: a result
outside the range is replaced by the nearer end of it, so every law here is a law on integers
followed by one `saturate`.
-/

namespace Compositor

abbrev Coord := Int32

namespace Coord

/-- The coordinate nearest to an integer. -/
def saturate (n : Int) : Coord :=
  if n < -2147483648 then Int32.minValue
  else if 2147483647 < n then Int32.maxValue
  else Int32.ofInt n

theorem toInt_saturate (n : Int) :
    (saturate n).toInt = max (-2147483648) (min n 2147483647) := by
  unfold saturate
  split
  · rw [Int32.toInt_minValue]; omega
  · split
    · rw [Int32.toInt_maxValue]; omega
    · rw [Int32.toInt_ofInt_of_le (by omega) (by omega)]; omega

theorem saturate_toInt (c : Coord) : saturate c.toInt = c := by
  have lower := c.le_toInt
  have upper := c.toInt_lt
  rw [← Int32.toInt_inj, toInt_saturate]
  omega

/-- Saturating sum. -/
def add (a b : Coord) : Coord := saturate (a.toInt + b.toInt)

/-- Saturating difference. -/
def sub (a b : Coord) : Coord := saturate (a.toInt - b.toInt)

theorem toInt_add (a b : Coord) :
    (add a b).toInt = max (-2147483648) (min (a.toInt + b.toInt) 2147483647) :=
  toInt_saturate _

theorem toInt_sub (a b : Coord) :
    (sub a b).toInt = max (-2147483648) (min (a.toInt - b.toInt) 2147483647) :=
  toInt_saturate _

theorem toInt_max (a b : Coord) : (max a b).toInt = max a.toInt b.toInt := by
  rw [show max a b = if a ≤ b then b else a from rfl]
  split
  · rename_i h
    rw [Int32.le_iff_toInt_le] at h
    omega
  · rename_i h
    rw [Int32.le_iff_toInt_le] at h
    omega

theorem toInt_min (a b : Coord) : (min a b).toInt = min a.toInt b.toInt := by
  rw [show min a b = if a ≤ b then a else b from rfl]
  split
  · rename_i h
    rw [Int32.le_iff_toInt_le] at h
    omega
  · rename_i h
    rw [Int32.le_iff_toInt_le] at h
    omega

/-- The coordinate that is exactly an integer; an integer out of range is an overflow of the
operation that it came from. -/
def exact (operation : Arithmetic) (n : Int) : Except Fault Coord :=
  if -2147483648 ≤ n ∧ n ≤ 2147483647 then .ok (Int32.ofInt n) else .error (.overflow operation)

/-- The coordinate between two limits that is nearest to an integer. -/
def clamp (low high : Coord) (n : Int) : Coord :=
  saturate (max low.toInt (min n high.toInt))

/-- The coordinate of an unsigned size; sizes beyond the range stand for its upper end. -/
def ofSize (n : UInt32) : Coord := saturate n.toNat

theorem toInt_ofSize (n : UInt32) : (ofSize n).toInt = min (n.toNat : Int) 2147483647 := by
  rw [ofSize, toInt_saturate]
  omega

/-- The coordinates from `a` up to, and without, `b`. -/
def range (a b : Coord) : List Coord :=
  (List.range (b.toInt - a.toInt).toNat).map fun k : Nat => saturate (a.toInt + k)

theorem mem_range {a b c : Coord} : c ∈ range a b ↔ a ≤ c ∧ c < b := by
  have ha := a.le_toInt
  have hb := b.toInt_lt
  simp only [range, List.mem_map, List.mem_range, Int32.le_iff_toInt_le, Int32.lt_iff_toInt_lt]
  constructor
  · rintro ⟨k, hk, rfl⟩
    rw [toInt_saturate]
    omega
  · rintro ⟨hac, hcb⟩
    refine ⟨(c.toInt - a.toInt).toNat, by omega, ?_⟩
    rw [← Int32.toInt_inj, toInt_saturate]
    omega

theorem nodup_range (a b : Coord) : (range a b).Nodup := by
  have ha := a.le_toInt
  have hb := b.toInt_lt
  rw [range, List.Nodup, List.pairwise_map]
  refine List.Pairwise.imp_of_mem ?_ List.nodup_range
  intro i j hi hj hne heq
  rw [List.mem_range] at hi hj
  rw [← Int32.toInt_inj, toInt_saturate, toInt_saturate] at heq
  omega

end Coord

end Compositor
