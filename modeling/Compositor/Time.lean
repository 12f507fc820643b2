import Compositor.Word

/-!
# Instants and durations

An instant is a point on a monotonic clock, a duration a span of it; both count nanoseconds in 64
bits. A clock is the stream of readings it will give, so a program that reads it owns the rest of
the stream.
-/

namespace Compositor

structure Duration where
  nanos : UInt64
deriving DecidableEq, Repr, Inhabited

structure Instant where
  nanos : UInt64
deriving DecidableEq, Repr, Inhabited

namespace Duration

def zero : Duration := ⟨0⟩

/-- A number of microseconds; the longest span stands for what does not fit. -/
def ofMicros (n : UInt64) : Duration := ⟨Word.saturate (n.toNat * 1000)⟩

/-- A number of milliseconds; the longest span stands for what does not fit. -/
def ofMillis (n : UInt64) : Duration := ⟨Word.saturate (n.toNat * 1000000)⟩

def micros (d : Duration) : UInt64 := d.nanos / 1000

/-- The microseconds of a span with their fraction, as a float. -/
def inMicros (d : Duration) : Float := d.nanos.toFloat / 1000.0

def addSaturating (d e : Duration) : Duration := ⟨Word.saturate (d.nanos.toNat + e.nanos.toNat)⟩

def add (d e : Duration) : Except Fault Duration :=
  return ⟨UInt64.ofNat (← Word.add d.nanos.toNat e.nanos.toNat)⟩

def describe (d : Duration) : String := s!"Duration({d.nanos}ns)"

end Duration

namespace Instant

def zero : Instant := ⟨0⟩

def compare (t u : Instant) : Ordering := Ord.compare t.nanos u.nanos

def latest (t u : Instant) : Instant := if t.nanos < u.nanos then u else t

/-- The microseconds up to a time with their fraction, as a float. -/
def inMicros (t : Instant) : Float := t.nanos.toFloat / 1000.0

/-- The span from `earlier` to `t`, or none of it if `earlier` lies later. -/
def since (t earlier : Instant) : Duration :=
  ⟨if earlier.nanos ≤ t.nanos then t.nanos - earlier.nanos else 0⟩

def addSaturating (t : Instant) (d : Duration) : Instant :=
  ⟨Word.saturate (t.nanos.toNat + d.nanos.toNat)⟩

def add (t : Instant) (d : Duration) : Except Fault Instant :=
  return ⟨UInt64.ofNat (← Word.add t.nanos.toNat d.nanos.toNat)⟩

def add? (t : Instant) (d : Duration) : Option Instant := (t.add d).toOption

def sub (t u : Instant) : Except Fault Duration :=
  return ⟨UInt64.ofNat (← Word.sub t.nanos.toNat u.nanos.toNat)⟩

def describe (t : Instant) : String := s!"HostTime({t.nanos}ns)"

theorem toNat_since (t u : Instant) :
    (t.since u).nanos.toNat = t.nanos.toNat - u.nanos.toNat := by
  unfold since
  split
  · rw [UInt64.toNat_sub_of_le _ _ ‹_›]
  · rename_i later
    rw [UInt64.le_iff_toNat_le] at later
    simp
    omega

end Instant

/-- The readings that a clock will give, the next one first. -/
structure Clock where
  readings : Nat → Instant

namespace Clock

/-- The clock that moves on by `step` with every reading. -/
def steps (start : Instant) (step : Duration) : Clock :=
  ⟨fun n => ⟨Word.saturate (start.nanos.toNat + n * step.nanos.toNat)⟩⟩

/-- The clock that stands still. -/
def constant (t : Instant) : Clock := ⟨fun _ => t⟩

instance : Inhabited Clock := ⟨constant Instant.zero⟩

/-- The next reading, and the clock after it. -/
def read (c : Clock) : Instant × Clock := (c.readings 0, ⟨fun n => c.readings (n + 1)⟩)

/-- Put every reading to come later by a span. -/
def delay (c : Clock) (d : Duration) : Clock := ⟨fun n => (c.readings n).addSaturating d⟩

end Clock

end Compositor
