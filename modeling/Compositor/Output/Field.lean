/-!
# The fields of an output

A commit names the fields that it touches in a mask of bits, one for each field.
-/

namespace Compositor

inductive Field where
  | enabled
  | mode
  | scale
  | transform
  | adaptiveSync
  | renderFormat
  | subpixel
  | buffer
  | damage
  | gamma
  | layers
deriving DecidableEq, Repr

/-- The place of a field's bit. -/
def Field.index : Field → Nat
  | enabled => 0
  | mode => 1
  | scale => 2
  | transform => 3
  | adaptiveSync => 4
  | renderFormat => 5
  | subpixel => 6
  | buffer => 7
  | damage => 8
  | gamma => 9
  | layers => 10

theorem Field.index_inj {f g : Field} : f.index = g.index ↔ f = g := by
  cases f <;> cases g <;> decide

structure FieldMask where
  bits : Nat
deriving DecidableEq, Repr

namespace FieldMask

def empty : FieldMask := ⟨0⟩

def contains (m : FieldMask) (f : Field) : Bool := m.bits.testBit f.index

def insert (m : FieldMask) (f : Field) : FieldMask := ⟨m.bits ||| Nat.pow 2 f.index⟩

@[simp] theorem contains_empty (f : Field) : empty.contains f = false := by
  simp [empty, contains]

@[simp] theorem contains_insert (m : FieldMask) (f g : Field) :
    (m.insert f).contains g = (m.contains g || f == g) := by
  rw [Bool.eq_iff_iff]
  simp [insert, contains, Nat.pow_eq, Nat.testBit_or, Nat.testBit_two_pow, Field.index_inj]

end FieldMask

end Compositor
