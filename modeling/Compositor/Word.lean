import Compositor.Fault

/-!
# Natural numbers as machine words

Counts and lengths are natural numbers. Where a result has to fit a word, of 64 bits or of 32, it is
either checked, and a fault if it does not fit, or replaced by the greatest word.
-/

namespace Compositor.Word

/-- The least number that does not fit. -/
def limit : Nat := UInt64.size

def add (a b : Nat) : Except Fault Nat :=
  if a + b < limit then .ok (a + b) else .error (.overflow .add)

def sub (a b : Nat) : Except Fault Nat :=
  if b ≤ a then .ok (a - b) else .error (.overflow .subtract)

def mul (a b : Nat) : Except Fault Nat :=
  if a * b < limit then .ok (a * b) else .error (.overflow .multiply)

/-- The sum of a list, added from the left; every partial sum has to fit. -/
def sum (ns : List Nat) : Except Fault Nat := ns.foldlM add 0

/-- One more, counted in 32 bits. -/
def countUp (n : Nat) : Except Fault Nat :=
  if n + 1 < UInt32.size then .ok (n + 1) else .error (.overflow .add)

theorem countUp_eq {n : Nat} (few : n + 1 < UInt32.size) : countUp n = .ok (n + 1) := if_pos few

/-- The word nearest to a number. -/
def saturate (n : Nat) : UInt64 := UInt64.ofNat (min n (limit - 1))

theorem toNat_saturate (n : Nat) : (saturate n).toNat = min n (limit - 1) := by
  rw [saturate, UInt64.toNat_ofNat_of_lt']
  simp only [limit, UInt64.size]
  omega

end Compositor.Word
