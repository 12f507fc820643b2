import Compositor.Proofs.Session.Effects

/-!
# What an action reports

An action adds events to the trace and takes readings off the clock. A clock goes forward if no
reading lies before the one that it follows; letting time pass keeps that. Then the times in the
events that an action adds lie in order, between the reading that came next before it and the one
that comes next after it. Most actions of a frame add nothing; such an action is silent.
-/

namespace Compositor

instance : LE Instant := ⟨fun t u => t.nanos ≤ u.nanos⟩

namespace Instant

@[grind =] theorem le_iff {t u : Instant} : t ≤ u ↔ t.nanos.toNat ≤ u.nanos.toNat :=
  UInt64.le_iff_toNat_le

theorem le_refl (t : Instant) : t ≤ t := by grind

theorem le_trans {t u v : Instant} (h : t ≤ u) (h' : u ≤ v) : t ≤ v := by
  grind

theorem le_addSaturating (t : Instant) (d : Duration) : t ≤ t.addSaturating d := by
  have := t.nanos.toNat_lt
  rw [le_iff, addSaturating, Word.toNat_saturate, Word.limit, UInt64.size]
  omega

theorem addSaturating_mono {t u : Instant} (h : t ≤ u) (d : Duration) :
    t.addSaturating d ≤ u.addSaturating d := by
  rw [le_iff] at h
  rw [le_iff, addSaturating, addSaturating, Word.toNat_saturate, Word.toNat_saturate]
  omega

/-- The instants come one after the other, none before `low` and none after `high`. -/
def Rising (low : Instant) : List Instant → Instant → Prop
  | [], high => low ≤ high
  | t :: ts, high => low ≤ t ∧ Rising t ts high

theorem Rising.mono {low low' high : Instant} {ts : List Instant} (before : low ≤ low')
    (rising : Rising low' ts high) : Rising low ts high := by
  cases ts with
  | nil => exact le_trans before rising
  | cons t ts => exact ⟨le_trans before rising.1, rising.2⟩

theorem Rising.append {low middle high : Instant} {ts us : List Instant}
    (first : Rising low ts middle) (rest : Rising middle us high) : Rising low (ts ++ us) high := by
  induction ts generalizing low with
  | nil => exact rest.mono first
  | cons t ts ih => exact ⟨first.1, ih first.2⟩

end Instant

namespace Clock

/-- The next reading. -/
def next (c : Clock) : Instant := c.readings 0

/-- No reading lies before the one that it follows. -/
def Forward (c : Clock) : Prop := ∀ n, c.readings n ≤ c.readings (n + 1)

theorem Forward.read {c : Clock} (forward : c.Forward) :
    c.read.2.Forward ∧ c.next ≤ c.read.2.next :=
  ⟨fun n => forward (n + 1), forward 0⟩

theorem forward_steps (start : Instant) (step : Duration) : (steps start step).Forward := by
  intro n
  rw [Instant.le_iff, steps, Word.toNat_saturate, Word.toNat_saturate]
  have := Nat.add_mul n 1 step.nanos.toNat
  omega

theorem Forward.delay {c : Clock} (forward : c.Forward) (d : Duration) : (c.delay d).Forward :=
  fun n => Instant.addSaturating_mono (forward n) d

end Clock

/-- When an event took place, if it says so. -/
def TraceEvent.time? : TraceEvent → Option Instant
  | phaseBegin _ _ t | phaseEnd _ _ t | commit _ _ _ _ _ t => some t
  | damage .. | passBegin .. | passSubmit .. | drawSkipped .. | summary .. => none

/-- The times in a list of events. -/
def TraceEvent.times (events : List TraceEvent) : List Instant := events.filterMap time?

namespace Session

/-- The events that were added from one session to another, with times as the clock gave them. -/
structure Reports (σ : Session) (events : List TraceEvent) (σ' : Session) : Prop where
  trace : σ'.trace = σ.trace ++ events
  clock : σ.clock.Forward → σ'.clock.Forward ∧
    Instant.Rising σ.clock.next (TraceEvent.times events) σ'.clock.next

namespace Reports

variable {σ σ₁ σ' : Session} {events more : List TraceEvent}

theorem nothing (trace : σ'.trace = σ.trace) (clock : σ'.clock = σ.clock) : σ.Reports [] σ' where
  trace := by rw [trace, List.append_nil]
  clock forward := ⟨clock ▸ forward, clock ▸ Instant.le_refl _⟩

theorem trans (first : σ.Reports events σ₁) (rest : σ₁.Reports more σ') :
    σ.Reports (events ++ more) σ' where
  trace := by rw [rest.trace, first.trace, List.append_assoc]
  clock forward := by
    obtain ⟨forward₁, rising₁⟩ := first.clock forward
    obtain ⟨forward', rising'⟩ := rest.clock forward₁
    refine ⟨forward', ?_⟩
    rw [TraceEvent.times, List.filterMap_append]
    exact rising₁.append rising'

end Reports

end Session

namespace Action

variable {α β : Type} {σ σ' : Session}

theorem now_ok {t : Instant} (h : now σ = .ok t σ') : t = σ.clock.next ∧ σ.Reports [] σ' := by
  cases h
  exact ⟨rfl, by rw [List.append_nil], fun forward => forward.read⟩

theorem emit_ok {e : TraceEvent} {u : Unit} (untimed : e.time? = none)
    (h : emit e σ = .ok u σ') : σ.Reports [e] σ' := by
  cases h
  refine ⟨rfl, fun forward => ⟨forward, ?_⟩⟩
  simp only [TraceEvent.times, List.filterMap_cons, untimed, List.filterMap_nil]
  exact Instant.le_refl _

/-- An event that is emitted as soon as the clock was read may carry that reading. -/
theorem now_emit_ok {e : Instant → TraceEvent} {t : Instant} {σ₁ : Session} {u : Unit}
    (timed : (e t).time? = some t) (timing : now σ = .ok t σ₁)
    (emitting : emit (e t) σ₁ = .ok u σ') : σ.Reports [e t] σ' := by
  cases timing
  cases emitting
  refine ⟨rfl, fun forward => ⟨forward.read.1, ?_⟩⟩
  simp only [TraceEvent.times, List.filterMap_cons, timed, List.filterMap_nil]
  exact ⟨Instant.le_refl _, forward.read.2⟩

/-! ## Silent actions -/

/-- The action reports nothing. -/
def Silent (x : Action α) : Prop := ∀ ⦃σ a σ'⦄, x σ = .ok a σ' → σ.Reports [] σ'

theorem Silent.bind {x : Action α} {f : α → Action β} (first : Silent x)
    (rest : ∀ a, Silent (f a)) : Silent (x >>= f) := by
  intro σ b σ' h
  obtain ⟨a, σ₁, h₁, h₂⟩ := bind_ok h
  exact (first h₁).trans (rest a h₂)

theorem Silent.map {x : Action α} (f : α → β) (silent : Silent x) : Silent (f <$> x) := by
  intro σ b σ' h
  obtain ⟨a, h₁, -⟩ := map_ok h
  exact silent h₁

theorem Silent.unwinding {x : Action α} (silent : Silent x) (drops : Store → Store) :
    Silent (unwinding x drops) :=
  fun _ _ _ h => silent (unwinding_ok.1 h)

/-- An action that touches neither the trace nor the clock. -/
theorem silent_of_same {x : Action α}
    (same : ∀ ⦃σ a σ'⦄, x σ = .ok a σ' → σ'.trace = σ.trace ∧ σ'.clock = σ.clock) : Silent x :=
  fun _ _ _ h => .nothing (same h).1 (same h).2

theorem silent_pure (a : α) : Silent (pure a : Action α) := by
  refine silent_of_same fun σ b σ' h => ?_
  cases h
  exact ⟨rfl, rfl⟩

theorem silent_get : Silent (get : Action Session) := by
  refine silent_of_same fun σ b σ' h => ?_
  cases h
  exact ⟨rfl, rfl⟩

theorem silent_now : Silent now := fun _ _ _ h => (now_ok h).2

theorem silent_pause (span : Duration) : Silent (pause span) := by
  intro σ u σ' h
  cases h
  refine ⟨(List.append_nil _).symm, fun forward => ⟨forward.delay span, ?_⟩⟩
  exact Instant.le_addSaturating _ span

theorem silent_note (e : Log.Event) : Silent (note e) := by
  refine silent_of_same fun σ u σ' h => ?_
  cases h
  exact ⟨rfl, rfl⟩

theorem silent_notes (events : List Log.Event) : Silent (events.forM note) := by
  induction events with
  | nil => exact silent_pure ()
  | cons e events ih => exact (silent_note e).bind fun _ => ih

theorem silent_modifyStore (f : Store → Store) : Silent (modifyStore f) := by
  refine silent_of_same fun σ u σ' h => ?_
  cases h
  exact ⟨rfl, rfl⟩

theorem silent_closeAccess (g : Guard) : Silent (closeAccess g) := silent_modifyStore _

theorem silent_withStore (f : Store → Except Fault (α × Store)) : Silent (withStore f) := by
  refine silent_get.bind fun s => ?_
  refine silent_of_same fun σ a σ' h => ?_
  cases result : f s.store <;> rw [result] at h <;> cases h
  exact ⟨rfl, rfl⟩

theorem silent_openAccess (b : Buffer) (flags : AccessRights) : Silent (openAccess b flags) := by
  refine silent_get.bind fun s => ?_
  refine silent_of_same fun σ r σ' h => ?_
  cases result : s.store.openAccess b flags <;> rw [result] at h <;> cases h <;> exact ⟨rfl, rfl⟩

end Action

end Compositor
