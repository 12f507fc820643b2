/-!
# Colours of four bytes

The working colour of every draw: red, green, blue and alpha, premultiplied by alpha.
-/

namespace Compositor

structure Rgba8 where
  r : UInt8
  g : UInt8
  b : UInt8
  a : UInt8
deriving DecidableEq, Repr, Inhabited

namespace Rgba8

/-- Apply `f` to each of the four channels. -/
def map (f : UInt8 → UInt8) (c : Rgba8) : Rgba8 := ⟨f c.r, f c.g, f c.b, f c.a⟩

/-- Combine two colours channel by channel. -/
def zipWith (f : UInt8 → UInt8 → UInt8) (c d : Rgba8) : Rgba8 :=
  ⟨f c.r d.r, f c.g d.g, f c.b d.b, f c.a d.a⟩

/-- The product of two bytes read as fractions of 255, rounded to the nearest byte. With
`t = a * b + 128`, the quotient by 255 is `(t + t / 256) / 256`. -/
def mulFraction (a b : UInt8) : UInt8 :=
  let t := a.toNat * b.toNat + 128
  UInt8.ofNat ((t + t / 256) / 256)

/-- Scale every channel by a mask byte; 255 changes nothing. -/
def mask (c : Rgba8) (m : UInt8) : Rgba8 := c.map (mulFraction · m)

theorem mask_full (c : Rgba8) : c.mask 255 = c := by
  have whole (a : UInt8) : mulFraction a 255 = a := by
    have small := a.toNat_lt
    have t : (255 : UInt8).toNat = 255 := rfl
    rw [← UInt8.toNat_inj, mulFraction, t, UInt8.toNat_ofNat']
    have carry : (a.toNat * 255 + 128) / 256 = if a.toNat ≤ 128 then a.toNat else a.toNat - 1 := by
      split <;> omega
    rw [carry]
    split <;> omega
  simp only [mask, map, whole]

/-- Sum of two bytes, capped at 255. -/
def addSaturating (a b : UInt8) : UInt8 := UInt8.ofNat (min (a.toNat + b.toNat) 255)

end Rgba8

/-- How a source colour meets the colour below it. -/
inductive Blend where
  /-- Source over destination, both premultiplied. -/
  | premultiplied
  /-- The source replaces the destination. -/
  | none
deriving DecidableEq, Repr, Inhabited

/-- The colour that replaces `below` when `source` is drawn over it. A premultiplied source adds to
what is left of the destination; an opaque one leaves nothing of it, and one of alpha zero keeps
the destination's alpha. -/
def Blend.apply (mode : Blend) (source below : Rgba8) : Rgba8 :=
  match mode with
  | .none => source
  | .premultiplied =>
    source.zipWith Rgba8.addSaturating (below.map (Rgba8.mulFraction · (255 - source.a)))

end Compositor
