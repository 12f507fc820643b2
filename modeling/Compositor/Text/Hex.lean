/-!
# Hexadecimal digits

Bytes are written as two lower-case digits each.
-/

namespace Compositor.Text.Hex

/-- The lowest digits of a number, the highest of them first. -/
def ofNat (digits n : Nat) : String :=
  String.ofList ((List.range digits).map fun k => (n / Nat.pow 16 (digits - 1 - k) % 16).digitChar)

def ofBytes (bytes : List UInt8) : String :=
  String.ofList (bytes.flatMap fun b => [(b.toNat / 16).digitChar, (b.toNat % 16).digitChar])

/-- The value of a digit; what is no digit counts as zero. -/
def value (c : Char) : Nat :=
  if c.isDigit then c.toNat - 48 else if 'a' ≤ c ∧ c ≤ 'f' then c.toNat - 87 else 0

/-- The bytes of pairs of digits; a last digit without a partner is left out. -/
def bytes : List Char → List UInt8
  | a :: b :: rest => UInt8.ofNat (value a * 16 + value b) :: bytes rest
  | _ => []

private theorem value_digitChar : ∀ n < 16, value n.digitChar = n := by decide

/-- Reading back what was written gives the bytes. -/
theorem bytes_ofBytes (bs : List UInt8) : bytes (ofBytes bs).toList = bs := by
  induction bs with
  | nil => rfl
  | cons b bs ih =>
    have high : b.toNat / 16 < 16 := by have := b.toNat_lt; omega
    have low : b.toNat % 16 < 16 := by omega
    simp only [ofBytes, String.toList_ofList, List.flatMap_cons, List.cons_append,
      List.nil_append, bytes] at ih ⊢
    rw [ih, value_digitChar _ high, value_digitChar _ low, Nat.div_add_mod']
    simp

end Compositor.Text.Hex
