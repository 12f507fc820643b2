/-!
# Decimals of floats

A finite float is a whole multiple of a power of two, so its decimals are found with exact integer
arithmetic. Two are needed: the shortest decimal that rounds to the float, and the float rounded to
tenths. Signs are left aside: what is written here is never negative. Decimals are read quickly and
not exactly: as many digits as fit 64 bits are rounded to a float, which is then scaled.
-/

namespace Compositor.Text

/-- The number `digits * 10 ^ exponent`. -/
structure Decimal where
  digits : Nat
  exponent : Int
deriving DecidableEq, Repr

/-- A quotient rounded to nearest; a tie goes to the even neighbour. -/
def divideNearest (n d : Nat) : Nat :=
  let q := n / d
  let r := n % d
  if 2 * r < d then q
  else if d < 2 * r then q + 1
  else q + q % 2

/-- A rounded quotient is at most half a unit away from the exact one. -/
theorem divideNearest_near {n d : Nat} (h : 0 < d) :
    2 * (divideNearest n d * d) ≤ 2 * n + d ∧ 2 * n ≤ 2 * (divideNearest n d * d) + d := by
  have exact : d * (n / d) + n % d = n := Nat.div_add_mod n d
  have small : n % d < d := Nat.mod_lt n h
  unfold divideNearest
  generalize n / d = q at *
  generalize n % d = r at *
  have below : q * d = d * q := Nat.mul_comm q d
  have above : (q + 1) * d = d * q + d := by rw [Nat.add_one_mul, below]
  dsimp only
  split
  · omega
  · split
    · omega
    · rcases Nat.mod_two_eq_zero_or_one q with even | odd
      · rw [even, Nat.add_zero]; omega
      · rw [odd]; omega

/-- A finite float without its sign, `significand * 2 ^ exponent`. -/
structure Binary where
  significand : Nat
  exponent : Int
  /-- Whether the float below is only half as far away as the float above. -/
  narrowBelow : Bool

def Binary.ofFloat (x : Float) : Binary :=
  let bits := x.toBits.toNat
  let leading := Nat.pow 2 52
  let fraction := bits % leading
  let e : Nat := bits / leading % Nat.pow 2 11
  if e = 0 then ⟨fraction, -1074, false⟩
  else ⟨leading + fraction, (e : Int) - 1075, fraction = 0 ∧ 1 < e⟩

/-- A value between the ends of the interval that rounds to it, all over one denominator. -/
structure Rounding where
  low : Nat
  value : Nat
  high : Nat
  denominator : Nat
  /-- Whether the ends round to the value too. -/
  closed : Bool

/-- What rounds to a float: the numbers up to halfway to its neighbours. Halfway itself goes to the
float with the even significand. -/
def Binary.rounding (b : Binary) : Rounding :=
  let quarters := 4 * b.significand
  let factor := Nat.pow 2 (b.exponent - 2).toNat
  { low := (quarters - if b.narrowBelow then 1 else 2) * factor
    value := quarters * factor
    high := (quarters + 2) * factor
    denominator := Nat.pow 2 (2 - b.exponent).toNat
    closed := b.significand % 2 = 0 }

namespace Rounding

/-- Whether the multiple `n * unit` of a unit lies in an interval that is scaled like the unit. -/
def admits (r : Rounding) (scale unit n : Nat) : Bool :=
  if r.closed then r.low * scale ≤ n * unit && n * unit ≤ r.high * scale
  else r.low * scale < n * unit && n * unit < r.high * scale

/-- The multiple of `10 ^ k` that is nearest to the value, if one of its two neighbours among these
multiples rounds to it. -/
def multiple? (r : Rounding) (k : Int) : Option Nat :=
  let scale := Nat.pow 10 (-k).toNat
  let unit := r.denominator * Nat.pow 10 k.toNat
  let below := r.value * scale / unit
  match r.admits scale unit below, r.admits scale unit (below + 1) with
  | true, true => some (divideNearest (r.value * scale) unit)
  | true, false => some below
  | false, true => some (below + 1)
  | false, false => none

/-- The exponents of ten that can be tried: no float needs one as small as the last. -/
def exponents (r : Rounding) : List Int :=
  let top : Int := (Nat.toDigits 10 (r.value / r.denominator)).length
  (List.range 400).map fun i : Nat => top - i

end Rounding

/-- The shortest decimal that rounds to a positive float; of two, the nearer one. -/
def Decimal.shortest (x : Float) : Decimal :=
  let r := (Binary.ofFloat x).rounding
  (r.exponents.findSome? fun k => (r.multiple? k).map (⟨·, k⟩)).getD ⟨0, 0⟩

/-- Which decimals are written with all their places. -/
structure Layout where
  /-- The least position of the point, counted from the first digit. -/
  first : Int
  /-- The greatest position of the point. -/
  last : Int

namespace Decimal

/-! ## Reading -/

/-- Take in more digits as long as all of them fit 64 bits. Each that is kept moves the exponent by
`kept`, and each that is left out by `dropped`. -/
def readDigits (kept dropped : Int) (d : Decimal) : List Char → Decimal
  | [] => d
  | c :: rest =>
    let digits := d.digits * 10 + (c.toNat - 48)
    if digits < UInt64.size then readDigits kept dropped ⟨digits, d.exponent + kept⟩ rest
    else ⟨d.digits, d.exponent + dropped * (rest.length + 1)⟩

/-- However long a number is, 64 bits hold the digits that are kept of it. -/
theorem readDigits_lt (kept dropped : Int) (d : Decimal) (cs : List Char)
    (h : d.digits < UInt64.size) : (readDigits kept dropped d cs).digits < UInt64.size := by
  induction cs generalizing d with
  | nil => exact h
  | cons c rest ih =>
    rw [readDigits]
    split
    · next fits => exact ih _ fits
    · exact h

private def natural (cs : List Char) : Int :=
  cs.foldl (fun n c => n * 10 + (c.toNat - 48 : Nat)) 0

/-- The decimal that a text without a sign says: digits, with a point and more digits or without,
with an exponent of ten or without. -/
def read (cs : List Char) : Decimal :=
  let (whole, rest) := cs.span Char.isDigit
  let (fraction, rest) := match rest with
    | '.' :: rest => rest.span Char.isDigit
    | rest => ([], rest)
  let shift := match rest with
    | _ :: '-' :: power => -natural power
    | _ :: '+' :: power => natural power
    | _ :: power => natural power
    | [] => 0
  let d := readDigits (-1) 0 (readDigits 0 1 ⟨0, 0⟩ whole) fraction
  ⟨d.digits, d.exponent + shift⟩

/-- The float that a decimal is read as: its digits as a float, times or divided by the power of
ten as a float. A power that is too small for one division takes two. -/
def toFloat (d : Decimal) : Float :=
  let m := Float.ofNat d.digits
  let power (n : Int) := Float.ofScientific 1 false (min n.toNat 309)
  if d.digits = 0 then 0
  else if 0 ≤ d.exponent then m * power d.exponent
  else if -308 ≤ d.exponent then m / power (-d.exponent)
  else m / power 308 / power (-d.exponent - 308)

/-! ## Writing -/

private def zeros (n : Int) : String := String.ofList (List.replicate n.toNat '0')

/-- The digits with a point, or with an exponent of ten if they would run too far away from it. -/
def write (layout : Layout) (d : Decimal) : String :=
  let digits := Nat.toDigits 10 d.digits
  let point : Int := digits.length + d.exponent
  let cut (n : Nat) : String :=
    let rest := digits.drop n
    String.ofList (digits.take n) ++ if rest.isEmpty then "" else "." ++ String.ofList rest
  if point < layout.first ∨ layout.last < point then
    let sign := if 0 < point then "+" else ""
    s!"{cut 1}e{sign}{point - 1}"
  else if point ≤ 0 then "0." ++ zeros (-point) ++ String.ofList digits
  else if 0 ≤ d.exponent then String.ofList digits ++ zeros d.exponent ++ ".0"
  else cut point.toNat

end Decimal

/-- The shortest text of a float. -/
def writeShortest (layout : Layout) (x : Float) : String :=
  if x == 0 then "0.0" else (Decimal.shortest x).write layout

/-- The exact value of a float, rounded to tenths. -/
def writeTenths (x : Float) : String :=
  let b := Binary.ofFloat x
  let n := divideNearest (b.significand * 10 * Nat.pow 2 b.exponent.toNat)
    (Nat.pow 2 (-b.exponent).toNat)
  s!"{n / 10}.{n % 10}"

end Compositor.Text
