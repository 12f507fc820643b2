import Compositor.Proofs.Frame.Summaries

/-!
# What a broken frame reports

A fault ends a frame before its pass began, or while it is painted. To find the next buffer, to
measure what it lacks and to paint it are silent, also where they break off; after the painting
nothing breaks off. So a frame that breaks off has no summary, and every other frame has one, of
itself. Main statement: whichever way a frame ends, it reports no summary with another start than
its own.
-/

namespace Compositor

namespace Action

variable {α β : Type} {σ : Session}

/-- The session that an action leaves behind, whether it returns or breaks off. -/
inductive Leaves (x : Action α) (σ : Session) : Session → Prop
  | returned {a : α} {σ' : Session} : x σ = .ok a σ' → Leaves x σ σ'
  | broken {fault : Fault} {σ' : Session} : x σ = .error fault σ' → Leaves x σ σ'

/-- The action breaks off, and its fault and the session that it leaves satisfy a predicate. -/
def Breaks (x : Action α) (σ : Session) (P : Fault → Session → Prop) : Prop :=
  match x σ with
  | .ok _ _ => False
  | .error fault σ' => P fault σ'

instance {x : Action α} {P : Fault → Session → Prop} [∀ fault σ, Decidable (P fault σ)] :
    Decidable (Breaks x σ P) :=
  match h : x σ with
  | .ok _ _ => isFalse (by rw [Breaks, h]; exact id)
  | .error fault σ' => decidable_of_iff (P fault σ') (by rw [Breaks, h])

theorem Breaks.exists_error {x : Action α} {P : Fault → Session → Prop} (h : Breaks x σ P) :
    ∃ fault σ', x σ = .error fault σ' ∧ P fault σ' := by
  unfold Breaks at h
  split at h
  · cases h
  · rename_i fault σ' result
    exact ⟨fault, σ', result, h⟩

/-- If the action breaks off, then it has reported nothing. -/
def BreaksSilently (x : Action α) : Prop :=
  ∀ ⦃σ fault σ'⦄, x σ = .error fault σ' → σ.Reports [] σ'

theorem Total.breaksSilently {x : Action α} (total : Total x) : BreaksSilently x :=
  fun _ _ _ h => absurd h total.ne_error

theorem BreaksSilently.bind {x : Action α} {f : α → Action β} (first : BreaksSilently x)
    (silent : Silent x) (rest : ∀ a, BreaksSilently (f a)) : BreaksSilently (x >>= f) := by
  intro σ fault σ' h
  obtain broken | ⟨a, σ₁, returned, broken⟩ := bind_error h
  · exact first broken
  · exact (silent returned).trans (rest a broken)

theorem BreaksSilently.unwinding {x : Action α} (breaks : BreaksSilently x)
    (drops : Store → Store) : BreaksSilently (unwinding x drops) := by
  intro σ fault σ' h
  obtain ⟨σ₁, broken, rfl⟩ := unwinding_error.1 h
  have reports := breaks broken
  exact ⟨reports.trace, reports.clock⟩

theorem breaksSilently_withStore (f : Store → Except Fault (α × Store)) :
    BreaksSilently (withStore f) := by
  refine total_get.breaksSilently.bind silent_get fun s => ?_
  intro σ fault σ' h
  cases result : f s.store <;> rw [result] at h <;> cases h
  exact .nothing rfl rfl

theorem total_openAccess (b : Buffer) (flags : AccessRights) : Total (openAccess b flags) := by
  refine total_get.bind fun s => ?_
  cases s.store.openAccess b flags with
  | ok opened => exact fun σ => ⟨_, _, rfl⟩
  | error cause => exact total_pure _

end Action

open Compositor.Action

/-! ## Painting -/

namespace Pass

variable {α : Type} [Scalar α] (p : Pass)

theorem total_skip (why : List (String × String)) : Total (p.skip why) :=
  (total_note _).bind fun _ => total_pure _

theorem breaksSilently_paintTexture (d : TextureDraw) (g : Guard) :
    BreaksSilently (p.paintTexture α d g) := by
  unfold paintTexture
  dsimp only
  split
  · exact (total_note _).breaksSilently
  · split
    · exact (total_note _).breaksSilently.bind (silent_note _) fun _ =>
        total_get.breaksSilently.bind silent_get fun _ => breaksSilently_withStore _
    · exact (total_pure _).breaksSilently

theorem breaksSilently_drawTexture (d : TextureDraw) : BreaksSilently (p.drawTexture α d) := by
  unfold drawTexture
  cases d.texture with
  | remote width height => exact (p.total_skip _).breaksSilently
  | stored b =>
    refine (total_openAccess b _).breaksSilently.bind (silent_openAccess b _) fun opened => ?_
    cases opened with
    | error cause => exact (p.total_skip _).breaksSilently
    | ok g =>
      refine ((p.breaksSilently_paintTexture d g).unwinding _).bind
        ((p.silent_paintTexture d g).unwinding _) fun _ => ?_
      exact ((total_modifyStore _).bind fun _ => total_pure _).breaksSilently

theorem breaksSilently_fillRect (fill : RectFill) : BreaksSilently (p.fillRect fill) := by
  unfold fillRect
  refine (total_note _).breaksSilently.bind (silent_note _) fun _ => ?_
  dsimp only
  split
  · exact (breaksSilently_withStore _).bind (silent_withStore _) fun _ =>
      (total_pure _).breaksSilently
  · exact (total_pure _).breaksSilently

theorem breaksSilently_stroke (s : Stroke) : BreaksSilently (p.stroke α s) := by
  cases s with
  | texture d => exact p.breaksSilently_drawTexture d
  | fill fill => exact p.breaksSilently_fillRect fill
  | pause span =>
    intro σ fault σ' h
    cases h

theorem breaksSilently_strokes (strokes : List Stroke) :
    BreaksSilently (p.strokes α strokes) := by
  induction strokes generalizing p with
  | nil => exact (total_pure _).breaksSilently
  | cons s rest ih =>
    exact (p.breaksSilently_stroke s).bind (p.silent_stroke s) fun p =>
      (ih p).bind (p.silent_strokes rest) fun _ => (total_pure _).breaksSilently

end Pass

theorem Painting.breaksSilently_draw {α : Type} [Scalar α] (painting : Painting) (p : Pass) :
    BreaksSilently (painting.draw α p) := by
  refine (p.breaksSilently_strokes _).bind (p.silent_strokes _) fun drawn => ?_
  cases painting.fault with
  | none => exact (total_pure drawn).breaksSilently
  | some fault =>
    intro σ fault σ' h
    cases h
    exact .nothing rfl rfl

/-! ## The frame -/

namespace FrameLoop

variable {d d' : FrameLoop} {c : Conditions} {σ σ' : Session} {fault : Fault}

/-- A frame that breaks off before its pass began reports only that its damage phase began. -/
theorem beginFrame_breaks (h : d.beginFrame c σ = .error fault σ') :
    ∃ t, σ.Reports [.phaseBegin d.frames .damage t] σ' := by
  obtain ⟨t, σ₁, r, σ₂, timing, entering, steps⟩ := beginFrame_steps h
  obtain ⟨t₁, reports, -⟩ := FrameRecord.enter_ok entering
  have begun := (now_ok timing).2.trans reports
  obtain ⟨-, rfl⟩ | ⟨b, -, -, rfl⟩ := steps
  · exact ⟨t₁, begun⟩
  · exact ⟨t₁, begun.trace, begun.clock⟩

variable {α : Type} [Scalar α] {painter : Region → Painting}

/-- A frame that breaks off is not summed up. -/
theorem makeFrame_breaks (h : d.makeFrame α c painter σ = .error fault σ') :
    ∃ told, σ.Reports told σ' ∧ ∀ s, .summary s ∉ told := by
  obtain broken | ⟨⟨d₁, opened⟩, σ₁, begun, rest⟩ := bind_error h
  · obtain ⟨t, reports⟩ := beginFrame_breaks broken
    exact ⟨_, reports, by simp⟩
  · obtain ⟨b, area, t₁, t₂, t₃, begins⟩ := beginFrame_reports begun
    obtain ⟨-, -, -, ⟨error, rfl, -⟩ | ⟨f, rfl, -, -, reports⟩⟩ := begins
    · cases rest
    · obtain broken | ⟨⟨p, stats⟩, σ₂, drawn, rest'⟩ := bind_error rest
      · have all := reports.trans ((Painting.breaksSilently_draw _ _).unwinding _ broken)
        exact ⟨_, all, by simp [opening, surveyed]⟩
      · exact absurd rest' ((total_endFrame _ _ _).bind fun _ => total_pure _).ne_error

/-- Whichever way a frame ends, the summaries that it reports start when the frame does. -/
theorem makeFrame_starts (h : Leaves (d.makeFrame α c painter) σ σ') :
    ∃ told, σ.Reports told σ' ∧ ∀ s, .summary s ∈ told → s.start = σ.clock.next := by
  cases h with
  | @returned made σ' returned =>
    obtain ⟨d', o⟩ := made
    obtain ⟨told, story, reports⟩ := makeFrame_reports returned
    refine ⟨_, reports, fun s mem => ?_⟩
    obtain inside | last := List.mem_append.1 mem
    · exact absurd inside (story.single s)
    · cases List.mem_singleton.1 last
      exact (FrameRecord.fixed_after _ told).2.2
  | broken broken =>
    obtain ⟨told, reports, none⟩ := makeFrame_breaks broken
    exact ⟨told, reports, fun s mem => absurd mem (none s)⟩

end FrameLoop

end Compositor
