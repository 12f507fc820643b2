import Compositor.Pixel.Rgba8

/-!
# Pixel formats

Every format takes four bytes a pixel. The formats differ in the order of red and blue, and in
whether the fourth byte is alpha or padding; padding reads as opaque and is written as 255.
-/

namespace Compositor

inductive PixelFormat where
  | argb8888
  | xrgb8888
  | abgr8888
  | xbgr8888
deriving DecidableEq, Repr, Inhabited

namespace PixelFormat

def all : List PixelFormat := [argb8888, xrgb8888, abgr8888, xbgr8888]

def name : PixelFormat → String
  | argb8888 => "Argb8888"
  | xrgb8888 => "Xrgb8888"
  | abgr8888 => "Abgr8888"
  | xbgr8888 => "Xbgr8888"

def ofName? (s : String) : Option PixelFormat := all.find? (·.name == s)

theorem ofName?_name (f : PixelFormat) : ofName? f.name = some f := by
  cases f <;> decide

/-- Four characters as one word, the first in the lowest byte. -/
private def wordOfChars (a b c d : Char) : UInt32 :=
  a.val ||| (b.val <<< 8) ||| (c.val <<< 16) ||| (d.val <<< 24)

/-- The four-character code by which display interfaces name the format. -/
def code : PixelFormat → UInt32
  | argb8888 => wordOfChars 'A' 'R' '2' '4'
  | xrgb8888 => wordOfChars 'X' 'R' '2' '4'
  | abgr8888 => wordOfChars 'A' 'B' '2' '4'
  | xbgr8888 => wordOfChars 'X' 'B' '2' '4'

def ofCode? (word : UInt32) : Option PixelFormat := all.find? (·.code == word)

theorem ofCode?_code (f : PixelFormat) : ofCode? f.code = some f := by
  cases f <;> decide

def bytesPerPixel : Nat := 4

def hasAlpha : PixelFormat → Bool
  | argb8888 | abgr8888 => true
  | xrgb8888 | xbgr8888 => false

/-- Whether blue, and not red, is the first byte in memory. -/
def blueFirst : PixelFormat → Bool
  | argb8888 | xrgb8888 => true
  | abgr8888 | xbgr8888 => false

/-- What a colour becomes when it is stored: formats without alpha make it opaque. -/
def store (f : PixelFormat) (c : Rgba8) : Rgba8 :=
  if f.hasAlpha then c else { c with a := 255 }

/-- The four bytes of a colour, in memory order. -/
def encode (f : PixelFormat) (c : Rgba8) : UInt8 × UInt8 × UInt8 × UInt8 :=
  let c := f.store c
  if f.blueFirst then (c.b, c.g, c.r, c.a) else (c.r, c.g, c.b, c.a)

/-- The colour of four bytes in memory order. -/
def decode (f : PixelFormat) : UInt8 × UInt8 × UInt8 × UInt8 → Rgba8
  | (p, q, s, t) => f.store (if f.blueFirst then ⟨s, q, p, t⟩ else ⟨p, q, s, t⟩)

@[simp] theorem store_store (f : PixelFormat) (c : Rgba8) : f.store (f.store c) = f.store c := by
  cases f <;> rfl

/-- Reading back gives the colour as the format stores it. -/
@[simp] theorem decode_encode (f : PixelFormat) (c : Rgba8) :
    f.decode (f.encode c) = f.store c := by
  cases f <;> rfl

end PixelFormat

end Compositor
