import Compositor.Session

/-!
# What an action does to the store

An action that returns is taken apart at its binds. Most of what a frame does is to read the clock
and to report, which leaves the store alone; such an action is quiet.
-/

namespace Compositor.Action

variable {α β : Type} {σ σ' : Session}

theorem bind_ok {x : Action α} {f : α → Action β} {b : β} (h : (x >>= f) σ = .ok b σ') :
    ∃ a σ₁, x σ = .ok a σ₁ ∧ f a σ₁ = .ok b σ' := by
  change (x.bind f) σ = .ok b σ' at h
  unfold EStateM.bind at h
  split at h
  · rename_i a σ₁ first
    exact ⟨a, σ₁, first, h⟩
  · cases h

/-- After an action that returned the next one goes on. -/
theorem bind_eq {x : Action α} {f : α → Action β} {a : α} {σ₁ : Session}
    (first : x σ = .ok a σ₁) : (x >>= f) σ = f a σ₁ := by
  change (x.bind f) σ = f a σ₁
  unfold EStateM.bind
  rw [first]

theorem bind_eq_ok {x : Action α} {f : α → Action β} {a : α} {b : β} {σ₁ : Session}
    (first : x σ = .ok a σ₁) (rest : f a σ₁ = .ok b σ') : (x >>= f) σ = .ok b σ' :=
  (bind_eq first).trans rest

theorem pure_ok {a b : α} (h : (pure a : Action α) σ = .ok b σ') : a = b ∧ σ = σ' := by
  cases h
  exact ⟨rfl, rfl⟩

theorem map_ok {x : Action α} {f : α → β} {b : β} (h : (f <$> x) σ = .ok b σ') :
    ∃ a, x σ = .ok a σ' ∧ f a = b := by
  change (x.map f) σ = .ok b σ' at h
  unfold EStateM.map at h
  split at h
  · rename_i a σ₁ first
    cases h
    exact ⟨a, first, rfl⟩
  · cases h

theorem get_ok {s : Session} (h : (get : Action Session) σ = .ok s σ') : s = σ ∧ σ' = σ := by
  cases h
  exact ⟨rfl, rfl⟩

theorem ofExcept_ok {x : Except Fault α} {a : α} (h : (ofExcept x : Action α) σ = .ok a σ') :
    x = .ok a ∧ σ' = σ := by
  cases x with
  | ok b =>
    cases h
    exact ⟨rfl, rfl⟩
  | error fault => cases h

/-- The action returns, and what comes of it satisfies a predicate. -/
def Returns (x : Action α) (σ : Session) (P : α → Session → Prop) : Prop :=
  match x σ with
  | .ok a σ' => P a σ'
  | .error _ _ => False

instance {x : Action α} {P : α → Session → Prop} [∀ a σ, Decidable (P a σ)] :
    Decidable (Returns x σ P) :=
  match h : x σ with
  | .ok a σ' => decidable_of_iff (P a σ') (by rw [Returns, h])
  | .error _ _ => isFalse (by rw [Returns, h]; exact id)

theorem Returns.exists_ok {x : Action α} {P : α → Session → Prop} (h : Returns x σ P) :
    ∃ a σ', x σ = .ok a σ' ∧ P a σ' := by
  unfold Returns at h
  split at h
  · rename_i a σ' result
    exact ⟨a, σ', result, h⟩
  · cases h

/-- The action leaves the store alone. -/
def Quiet (x : Action α) : Prop := ∀ ⦃σ a σ'⦄, x σ = .ok a σ' → σ'.store = σ.store

theorem Quiet.bind {x : Action α} {f : α → Action β} (first : Quiet x)
    (rest : ∀ a, Quiet (f a)) : Quiet (x >>= f) := by
  intro σ b σ' h
  obtain ⟨a, σ₁, h₁, h₂⟩ := bind_ok h
  exact (rest a h₂).trans (first h₁)

theorem Quiet.map {x : Action α} (f : α → β) (quiet : Quiet x) : Quiet (f <$> x) := by
  intro σ b σ' h
  obtain ⟨a, h₁, -⟩ := map_ok h
  exact quiet h₁

theorem quiet_pure (a : α) : Quiet (pure a : Action α) := by
  intro σ b σ' h
  rw [(pure_ok h).2]

theorem quiet_now : Quiet now := by
  intro σ t σ' h
  cases h
  rfl

theorem quiet_pause (span : Duration) : Quiet (pause span) := by
  intro σ u σ' h
  cases h
  rfl

theorem quiet_note (e : Log.Event) : Quiet (note e) := by
  intro σ u σ' h
  cases h
  rfl

theorem quiet_emit (e : TraceEvent) : Quiet (emit e) := by
  intro σ u σ' h
  cases h
  rfl

theorem quiet_notes (events : List Log.Event) : Quiet (events.forM note) := by
  induction events with
  | nil => exact quiet_pure ()
  | cons e events ih => exact (quiet_note e).bind fun _ => ih

/-! ## Actions without faults -/

/-- The action always returns. -/
def Total (x : Action α) : Prop := ∀ σ, ∃ a σ', x σ = .ok a σ'

theorem Total.bind {x : Action α} {f : α → Action β} (first : Total x) (rest : ∀ a, Total (f a)) :
    Total (x >>= f) := by
  intro σ
  obtain ⟨a, σ₁, h₁⟩ := first σ
  obtain ⟨b, σ₂, h₂⟩ := rest a σ₁
  exact ⟨b, σ₂, bind_eq_ok h₁ h₂⟩

theorem bind_error {x : Action α} {f : α → Action β} {fault : Fault}
    (h : (x >>= f) σ = .error fault σ') :
    x σ = .error fault σ' ∨ ∃ a σ₁, x σ = .ok a σ₁ ∧ f a σ₁ = .error fault σ' := by
  change (x.bind f) σ = .error fault σ' at h
  unfold EStateM.bind at h
  split at h
  · rename_i a σ₁ first
    exact .inr ⟨a, σ₁, first, h⟩
  · rename_i fault σ₁ first
    cases h
    exact .inl first

theorem ofExcept_error {x : Except Fault α} {fault : Fault}
    (h : (ofExcept x : Action α) σ = .error fault σ') : x = .error fault ∧ σ' = σ := by
  cases x with
  | ok a => cases h
  | error fault =>
    cases h
    exact ⟨rfl, rfl⟩

theorem bind_eq_error {x : Action α} {f : α → Action β} {fault : Fault}
    (h : x σ = .error fault σ') : (x >>= f) σ = .error fault σ' := by
  change (x.bind f) σ = .error fault σ'
  unfold EStateM.bind
  rw [h]

theorem Total.ne_error {x : Action α} (total : Total x) {fault : Fault} :
    x σ ≠ .error fault σ' := by
  intro h
  obtain ⟨a, σ₁, returned⟩ := total σ
  cases h.symm.trans returned

/-- Only what comes after an action without faults can break off. -/
theorem Total.bind_error {x : Action α} {f : α → Action β} (total : Total x) {fault : Fault}
    (h : (x >>= f) σ = .error fault σ') :
    ∃ a σ₁, x σ = .ok a σ₁ ∧ f a σ₁ = .error fault σ' :=
  (Action.bind_error h).resolve_left total.ne_error

theorem total_pure (a : α) : Total (pure a : Action α) := fun σ => ⟨a, σ, rfl⟩

theorem total_get : Total (get : Action Session) := fun σ => ⟨σ, σ, rfl⟩

theorem total_now : Total now := fun σ => ⟨σ.clock.read.1, { σ with clock := σ.clock.read.2 }, rfl⟩

theorem total_note (e : Log.Event) : Total (note e) :=
  fun σ => ⟨(), { σ with log := σ.log ++ [e] }, rfl⟩

theorem total_emit (e : TraceEvent) : Total (emit e) :=
  fun σ => ⟨(), { σ with trace := σ.trace ++ [e] }, rfl⟩

theorem total_modifyStore (f : Store → Store) : Total (modifyStore f) :=
  fun σ => ⟨(), { σ with store := f σ.store }, rfl⟩

theorem total_notes (events : List Log.Event) : Total (events.forM note) := by
  induction events with
  | nil => exact total_pure ()
  | cons e events ih => exact (total_note e).bind fun _ => ih

/-! ## Dropping on the way out -/

theorem unwinding_eq (x : Action α) (drops : Store → Store) (σ : Session) :
    unwinding x drops σ = match x σ with
      | .ok a σ' => .ok a σ'
      | .error fault σ' => .error fault { σ' with store := drops σ'.store } := by
  change EStateM.tryCatch x _ σ = _
  unfold EStateM.tryCatch
  cases x σ <;> rfl

/-- What is dropped on the way out makes no difference to an action that returns. -/
theorem unwinding_ok {x : Action α} {drops : Store → Store} {a : α} :
    unwinding x drops σ = .ok a σ' ↔ x σ = .ok a σ' := by
  rw [unwinding_eq]
  cases x σ <;> simp

theorem unwinding_error {x : Action α} {drops : Store → Store} {fault : Fault} :
    unwinding x drops σ = .error fault σ' ↔
      ∃ σ₁, x σ = .error fault σ₁ ∧ σ' = { σ₁ with store := drops σ₁.store } := by
  rw [unwinding_eq]
  cases x σ <;> simp [and_assoc, eq_comm]

/-! ## Changes of the store -/

theorem modifyStore_ok {f : Store → Store} {u : Unit} (h : modifyStore f σ = .ok u σ') :
    σ'.store = f σ.store := by
  cases h
  rfl

theorem closeAccess_ok {g : Guard} {u : Unit} (h : closeAccess g σ = .ok u σ') :
    σ'.store = σ.store.closeAccess g :=
  modifyStore_ok h

theorem withStore_ok {f : Store → Except Fault (α × Store)} {a : α}
    (h : withStore f σ = .ok a σ') : f σ.store = .ok (a, σ'.store) := by
  unfold withStore at h
  obtain ⟨s, σ₁, first, rest⟩ := bind_ok h
  obtain ⟨rfl, rfl⟩ := get_ok first
  cases result : f σ₁.store with
  | error fault =>
    rw [result] at rest
    cases rest
  | ok changed =>
    rw [result] at rest
    cases rest
    rfl

/-- Either the access was opened, or the store is as it was. -/
theorem openAccess_result {b : Buffer} {flags : AccessRights} {r : Except AccessError Guard}
    (h : openAccess b flags σ = .ok r σ') :
    (∃ g, r = .ok g ∧ σ.store.openAccess b flags = .ok (g, σ'.store)) ∨
      ∃ cause, r = .error cause ∧ σ'.store = σ.store := by
  unfold openAccess at h
  obtain ⟨s, σ₁, first, rest⟩ := bind_ok h
  obtain ⟨rfl, rfl⟩ := get_ok first
  cases result : σ₁.store.openAccess b flags with
  | error cause =>
    rw [result] at rest
    cases rest
    exact .inr ⟨cause, rfl, rfl⟩
  | ok opened =>
    rw [result] at rest
    cases rest
    exact .inl ⟨opened.1, rfl, rfl⟩

end Compositor.Action
