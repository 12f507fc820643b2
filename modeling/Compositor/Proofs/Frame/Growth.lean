import Compositor.Proofs.Frame.Swapchain

/-!
# No buffer is forgotten

Buffers are numbered in the order in which they are made, and a store remembers all of them, so a
new buffer has a number that was never used. Nothing that a frame does makes a store forget one.
-/

namespace Compositor

/-! ## Stores -/

namespace Store

theorem buffer?_openAccess {s s' : Store} {b : Buffer} {flags : AccessRights} {g : Guard}
    (opened : s.openAccess b flags = .ok (g, s')) (id : BufferId) :
    s'.buffer? id = s.buffer? id := by
  obtain ⟨-, lock, -, rfl⟩ := openAccess_ok opened
  exact s.buffer?_modify _ id fun _ => rfl

theorem buffer?_closeAccess (s : Store) (g : Guard) (id : BufferId) :
    (s.closeAccess g).buffer? id = s.buffer? id :=
  (buffer?_eq_of_fixed? (fixed?_settle _ _ id)).trans (s.buffer?_modify _ id fun _ => rfl)

end Store

/-- A display changes no lock. -/
theorem HeadlessDisplay.fixed?_commit (d : HeadlessDisplay) (s : Store) (r : OutputRequest)
    (id : BufferId) : (d.commit s r).2.store.fixed? id = s.fixed? id := by
  have tested : (d.test s r).store.entries = s.entries := by
    unfold test
    dsimp only
    split <;> cases r.staged.layers <;> rfl
  have same : (d.test s r).store.fixed? id = s.fixed? id := by
    simp only [Store.fixed?, Store.entry?, tested]
  unfold commit
  dsimp only
  split
  · exact (Store.fixed?_settle _ _ id).trans ((Store.fixed?_exchange _ _ _ id).trans same)
  · exact (Store.fixed?_settle _ _ id).trans same

/-! ## Actions -/

namespace Action

variable {α β : Type}

/-- The action forgets no buffer. -/
def Grows (x : Action α) : Prop :=
  ∀ ⦃σ a σ'⦄, x σ = .ok a σ' → σ.store.entries.length ≤ σ'.store.entries.length

theorem Quiet.grows {x : Action α} (quiet : Quiet x) : Grows x := by
  intro σ a σ' h
  exact Nat.le_of_eq (congrArg (·.entries.length) (quiet h).symm)

theorem Grows.bind {x : Action α} {f : α → Action β} (first : Grows x)
    (rest : ∀ a, Grows (f a)) : Grows (x >>= f) := by
  intro σ b σ' h
  obtain ⟨a, σ₁, h₁, h₂⟩ := bind_ok h
  exact Nat.le_trans (first h₁) (rest a h₂)

theorem grows_pure (a : α) : Grows (pure a : Action α) := (quiet_pure a).grows

theorem grows_modifyStore {f : Store → Store}
    (length : ∀ s, (f s).entries.length = s.entries.length) : Grows (modifyStore f) := by
  intro σ u σ' h
  refine Nat.le_of_eq ?_
  rw [modifyStore_ok h, length]

theorem grows_openAccess (b : Buffer) (flags : AccessRights) : Grows (openAccess b flags) := by
  intro σ r σ' h
  obtain ⟨g, -, opened⟩ | ⟨cause, -, same⟩ := openAccess_result h
  · exact Nat.le_of_eq (Store.length_eq_of_buffer? (Store.buffer?_openAccess opened)).symm
  · exact Nat.le_of_eq (congrArg (·.entries.length) same.symm)

theorem grows_closeAccess (g : Guard) : Grows (closeAccess g) :=
  grows_modifyStore fun s => Store.length_eq_of_buffer? (s.buffer?_closeAccess g)

end Action

open Compositor.Action

namespace Pass

variable {α : Type} [Scalar α]

theorem Wrote.length {p : Pass} {s s' : Store} (h : p.Wrote s s') :
    s'.entries.length = s.entries.length := by
  obtain rfl | ⟨bytes, rfl⟩ := h
  · rfl
  · exact s.length_modify _ _

theorem grows_skip (p : Pass) (why : List (String × String)) : Grows (p.skip why) :=
  Quiet.grows fun _ _ _ h => (skip_ok h).2

theorem grows_stroke (p : Pass) (s : Stroke) : Grows (p.stroke α s) := by
  cases s with
  | texture d =>
    change Grows (p.drawTexture α d)
    unfold drawTexture
    cases d.texture with
    | remote width height => exact p.grows_skip _
    | stored b =>
      refine (grows_openAccess b _).bind fun opened => ?_
      cases opened with
      | error cause => exact p.grows_skip _
      | ok g =>
        have paint : Grows (unwinding (p.paintTexture α d g) (·.closeAccess g)) :=
          fun _ _ _ h => Nat.le_of_eq (paintTexture_wrote (unwinding_ok.1 h)).length.symm
        exact paint.bind fun _ => (grows_closeAccess g).bind fun _ => grows_pure _
  | fill fill => exact fun _ _ _ h => Nat.le_of_eq (fillRect_wrote h).2.length.symm
  | pause span => exact ((quiet_pause span).bind fun _ => quiet_pure _).grows

theorem grows_strokes (p : Pass) (strokes : List Stroke) : Grows (p.strokes α strokes) := by
  induction strokes generalizing p with
  | nil => exact grows_pure _
  | cons s rest ih =>
    exact (p.grows_stroke s).bind fun _ => (ih _).bind fun _ => grows_pure _

end Pass

namespace FrameLoop

variable {d d' : FrameLoop} {c : Conditions} {σ σ' : Session}

/-- Once the pass is closed, no lock changes any more. -/
theorem endFrame_fixed? {f : OpenFrame} {result : Except PassError Bool}
    (h : d.endFrame c f σ = .ok (d', result) σ') (id : BufferId) :
    σ'.store.fixed? id = (σ.store.closeAccess f.pass.target).fixed? id := by
  obtain ⟨error, -, -, same⟩ | ⟨r, accepted, σ₁, -, closed, presenting⟩ := endFrame_steps h
  · exact same ▸ Store.fixed?_settle _ _ id
  · obtain ⟨d₁, σ₂, σ₃, before, committing, -, after⟩ := present_steps presenting
    have committed : σ₃.store.fixed? id = σ₂.store.fixed? id := by
      obtain ⟨-, same⟩ | ⟨-, same⟩ := commit_steps committing
      · exact same ▸ Store.fixed?_settle _ _ id
      · exact same ▸ HeadlessDisplay.fixed?_commit _ _ _ id
    rw [after, committed, before, closed]

theorem grows_makeFrame (α : Type) [Scalar α] (d : FrameLoop) (c : Conditions)
    (painter : Region → Painting) : Grows (d.makeFrame α c painter) := by
  intro σ r σ' h
  obtain ⟨d₁, opened, σ₁, beginning, ending⟩ := makeFrame_ok h
  have begun : σ₁.store.entries.length = σ.store.entries.length := by
    obtain ⟨b, -, ⟨f, -, -, -, -, granted⟩ | ⟨error, -, -, released⟩⟩ :=
      beginFrame_result beginning
    · have opened := Store.length_eq_of_buffer? (Store.buffer?_openAccess granted)
      rw [opened, Store.retain, Store.length_modify]
    · rw [released, Store.release, Store.length_settle, Store.retain, Store.length_modify]
  obtain ⟨error, -, -, -, rfl⟩ | ⟨f, p, stats, σ₂, result, -, drawing, closing, -⟩ := ending
  · exact Nat.le_of_eq begun.symm
  · have drawn : σ₁.store.entries.length ≤ σ₂.store.entries.length :=
      Pass.grows_strokes _ _ (Painting.draw_ok.1 drawing).1
    have closed : σ'.store.entries.length = σ₂.store.entries.length :=
      Store.length_eq_of_buffer? fun id =>
        (Store.buffer?_eq_of_fixed? (endFrame_fixed? closing id)).trans
          (σ₂.store.buffer?_closeAccess _ id)
    omega

/-! ## New buffers are new -/

theorem allocate_fresh {config : Swapchain} {width height : UInt32} {n : Nat}
    {buffers : List Buffer} (h : allocate config width height n σ = .ok buffers σ') :
    σ.store.entries.length ≤ σ'.store.entries.length ∧
      ∀ b ∈ buffers, σ.store.entries.length ≤ b.id.index := by
  induction n generalizing σ buffers with
  | zero =>
    obtain ⟨rfl, rfl⟩ := pure_ok h
    exact ⟨Nat.le_refl _, nofun⟩
  | succ n ih =>
    obtain ⟨b, σ₁, creating, rest⟩ := bind_ok h
    obtain ⟨others, σ₂, allocating, ending⟩ := bind_ok rest
    obtain ⟨rfl, rfl⟩ := pure_ok ending
    obtain ⟨pixels, -, created⟩ := Store.create_ok (withStore_ok creating)
    obtain ⟨rfl, store⟩ := Prod.mk.inj created
    have more : σ₁.store.entries.length = σ.store.entries.length + 1 := by
      rw [store]
      exact List.length_append
    obtain ⟨grows, fresh⟩ := ih allocating
    refine ⟨by omega, ?_⟩
    rintro b (_ | ⟨_, mem⟩)
    · exact Nat.le_refl _
    · exact Nat.le_trans (by omega) (fresh b mem)

/-- A loop keeps its size and its buffers, or all its buffers are new. -/
theorem resize_fresh {width height : UInt32} (h : d.resize width height σ = .ok d' σ') :
    d' = d ∧ σ' = σ ∨ σ.store.entries.length ≤ σ'.store.entries.length ∧ d'.next = 0 ∧
      (∀ b ∈ d'.buffers, σ.store.entries.length ≤ b.id.index) ∧
      ∀ id, d'.ring.missed? id = d.ring.missed? id := by
  unfold resize at h
  split at h
  · obtain ⟨rfl, rfl⟩ := pure_ok h
    exact .inl ⟨rfl, rfl⟩
  · obtain ⟨buffers, σ₁, allocating, h₁⟩ := bind_ok h
    obtain ⟨u, σ₂, disposing, h₂⟩ := bind_ok h₁
    obtain ⟨u, σ₃, noting, h₃⟩ := bind_ok h₂
    obtain ⟨u, σ₄, noting', ending⟩ := bind_ok h₃
    obtain ⟨rfl, rfl⟩ := pure_ok ending
    obtain ⟨grows, fresh⟩ := allocate_fresh allocating
    refine .inr ⟨?_, rfl, fresh, fun id => d.ring.missed?_resize id _ _⟩
    rwa [quiet_note _ noting', quiet_notes _ noting, modifyStore_ok disposing,
      Store.dispose, Store.length_settle]

end FrameLoop

end Compositor
