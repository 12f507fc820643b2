import Compositor.Draw.Pass
import Compositor.Proofs.Session.Effects
import Compositor.Proofs.Store.Operations

/-!
# What a pass does to the store

A pass writes into its destination only. Textures are held for reading while they are drawn, and
given back; so the balance is kept, and all other buffers that someone holds keep their pixels. Its
counts are numbers of 32 bits, and as long as they fit they are what the pass counts.
-/

namespace Compositor

namespace PassTally

variable {tally : PassTally}

/-- One more stroke was drawn. -/
def drawn (tally : PassTally) : Except Fault PassTally := do
  return { tally with ops := ← Word.countUp tally.ops }

/-- One more texture was left out. -/
def leftOut (tally : PassTally) : Except Fault PassTally := do
  return { tally with skipped := ← Word.countUp tally.skipped }

theorem drawn_eq (few : tally.ops + 1 < UInt32.size) :
    tally.drawn = .ok { tally with ops := tally.ops + 1 } := by
  rw [drawn, Word.countUp_eq few]
  rfl

theorem leftOut_eq (few : tally.skipped + 1 < UInt32.size) :
    tally.leftOut = .ok { tally with skipped := tally.skipped + 1 } := by
  rw [leftOut, Word.countUp_eq few]
  rfl

end PassTally

namespace Store

/-- While everything in a holding is kept, only the pixels of one buffer may change. -/
def Touches (h : Holding) (target : BufferId) (s s' : Store) : Prop :=
  s.Balanced h → s'.Balanced h ∧ ∀ id ∈ h.buffers, id ≠ target → s'.pixels id = s.pixels id

namespace Touches

variable {h : Holding} {target : BufferId} {s s' s'' : Store}

theorem refl (h : Holding) (target : BufferId) (s : Store) : Touches h target s s :=
  fun balanced => ⟨balanced, fun _ _ _ => rfl⟩

theorem trans (first : Touches h target s s') (second : Touches h target s' s'') :
    Touches h target s s'' := by
  intro balanced
  obtain ⟨balanced', pixels⟩ := first balanced
  obtain ⟨balanced'', pixels'⟩ := second balanced'
  exact ⟨balanced'', fun id mem apart => (pixels' id mem apart).trans (pixels id mem apart)⟩

/-- Writing the pixels of the target. -/
theorem write (h : Holding) (target : BufferId) (s : Store) (bytes : Array UInt8) :
    Touches h target s (s.modify target ({ · with pixels := bytes })) := by
  intro balanced
  refine ⟨balanced.modify target (fun _ => rfl) fun _ => rfl, fun id _ apart => ?_⟩
  simp only [pixels, entry?_modify, apart, ↓reduceIte]

end Touches

theorem pixels_modify (s : Store) (id other : BufferId) {f : Entry → Entry}
    (same : ∀ e, (f e).pixels = e.pixels) : (s.modify id f).pixels other = s.pixels other := by
  simp only [pixels, entry?_modify]
  split
  · cases s.entry? other <;> simp [same]
  · rfl

theorem modify_missing {s : Store} {id : BufferId} (missing : s.entry? id = none)
    (f : Entry → Entry) : s.modify id f = s := by
  have beyond : s.entries.length ≤ id.index := List.getElem?_eq_none_iff.1 missing
  rw [modify, List.modify_eq_self beyond]

theorem release_missing {s : Store} {id : BufferId} (missing : s.entry? id = none) :
    s.release id = s := by
  have missing' : s.entries[id.index]? = none := missing
  simp [release, settle, perform, Store.dropBuffer, missing']

theorem pixels_openAccess {s s' : Store} {b : Buffer} {flags : AccessRights} {g : Guard}
    (opened : s.openAccess b flags = .ok (g, s')) (id : BufferId) : s'.pixels id = s.pixels id := by
  obtain ⟨-, lock, -, rfl⟩ := openAccess_ok opened
  exact pixels_modify s b.id id fun _ => rfl

theorem Balanced.pixels_closeAccess {s : Store} {h : Holding} {g : Guard}
    (balanced : s.Balanced (.single g.buffer.id ++ h)) {id : BufferId} (mem : id ∈ h.buffers) :
    (s.closeAccess g).pixels id = s.pixels id := by
  have unlocked := balanced.modify g.buffer.id (f := fun e => { e with lock := e.lock.release })
    (fun _ => rfl) fun _ => rfl
  exact (unlocked.keeps_release mem).pixels.trans (pixels_modify s _ id fun _ => rfl)

/-- An access for the time of some work: what the work keeps is kept over the whole. A buffer that
is not in the store is not held either. -/
theorem Touches.access {h : Holding} {target : BufferId} {s s₁ s₂ : Store} {b : Buffer}
    {flags : AccessRights} {g : Guard} (opened : s.openAccess b flags = .ok (g, s₁))
    (work : ∀ k, Touches k target s₁ s₂) (absent : s₁.entry? b.id = none → s₂.entry? b.id = none) :
    Touches h target s (s₂.closeAccess g) := by
  have guard : g = ⟨b, flags⟩ := (openAccess_ok opened).1
  subst guard
  cases found : s.entry? b.id with
  | none =>
    obtain ⟨-, lock, -, rfl⟩ := openAccess_ok opened
    rw [modify_missing found] at work absent
    rw [Store.closeAccess, modify_missing (absent found), release_missing (absent found)]
    exact work h
  | some e =>
    intro balanced
    obtain ⟨balanced', pixels⟩ := work _ (balanced.openAccess ⟨e, found⟩ opened)
    refine ⟨balanced'.closeAccess, fun id mem apart => ?_⟩
    calc (s₂.closeAccess ⟨b, flags⟩).pixels id
      _ = s₂.pixels id := balanced'.pixels_closeAccess mem
      _ = s₁.pixels id := pixels id (List.mem_append_right _ mem) apart
      _ = s.pixels id := pixels_openAccess opened id

end Store

open Compositor.Action

/-- Either a pass began, or the store is as it was. -/
theorem Renderer.start_result {r : Renderer} {b : Buffer} {σ σ' : Session}
    {result : Except PassError Pass} (h : r.start b σ = .ok result σ') :
    (∃ p, result = .ok p ∧ σ.store.openAccess b .readWrite = .ok (p.target, σ'.store)) ∨
      ∃ error, result = .error error ∧ σ'.store = σ.store := by
  unfold Renderer.start at h
  split at h
  · obtain ⟨rfl, rfl⟩ := pure_ok h
    exact .inr ⟨_, rfl, rfl⟩
  · obtain ⟨opened, σ₁, first, rest⟩ := bind_ok h
    obtain ⟨g, rfl, granted⟩ | ⟨cause, rfl, same⟩ := openAccess_result first
    · refine .inl ?_
      cases timed : r.timed with
      | false =>
        simp only [timed, Bool.false_eq_true, ↓reduceIte, pure_bind] at rest
        obtain ⟨u, σ₂, noting, rest⟩ := bind_ok rest
        obtain ⟨rfl, rfl⟩ := pure_ok rest
        exact ⟨_, rfl, by rwa [quiet_note _ noting]⟩
      | true =>
        simp only [timed, ↓reduceIte] at rest
        obtain ⟨started, σ₂, timing, rest⟩ := bind_ok rest
        obtain ⟨u, σ₃, noting, rest⟩ := bind_ok rest
        obtain ⟨rfl, rfl⟩ := pure_ok rest
        exact ⟨_, rfl, by rwa [quiet_note _ noting, quiet_now.map some timing]⟩
    · obtain ⟨rfl, rfl⟩ := pure_ok rest
      exact .inr ⟨_, rfl, same⟩

namespace Pass

variable {α : Type} [Scalar α] {p p' : Pass} {σ σ' : Session}

/-- A store that differs at most in the pixels of the destination. -/
def Wrote (p : Pass) (s s' : Store) : Prop :=
  s' = s ∨ ∃ bytes, s' = s.modify p.target.buffer.id ({ · with pixels := bytes })

theorem Wrote.touches {s s' : Store} (h : p.Wrote s s') (k : Holding) :
    Store.Touches k p.target.buffer.id s s' := by
  obtain rfl | ⟨bytes, rfl⟩ := h
  · exact .refl k _ _
  · exact .write k _ s bytes

theorem Wrote.absent {s s' : Store} (h : p.Wrote s s') {id : BufferId}
    (missing : s.entry? id = none) : s'.entry? id = none := by
  obtain rfl | ⟨bytes, rfl⟩ := h
  · exact missing
  · simp [Store.entry?_modify, missing]

theorem paint_wrote {mode : Blend} {shade : Shade} {region : Region} {u : Unit}
    (h : p.paint mode shade region σ = .ok u σ') : p.Wrote σ.store σ'.store := by
  have changed := withStore_ok h
  dsimp only at changed
  generalize updated : σ.store.update p.target _ = result at changed
  cases result with
  | error fault => cases changed
  | ok s =>
    obtain ⟨bytes, -, written⟩ := Store.update_ok updated
    cases changed
    exact .inr ⟨bytes, written⟩

theorem skip_ok {why : List (String × String)} (h : p.skip why σ = .ok p' σ') :
    p'.target = p.target ∧ σ'.store = σ.store := by
  unfold skip at h
  obtain ⟨u, σ₁, noting, rest⟩ := bind_ok h
  obtain ⟨rfl, rfl⟩ := pure_ok rest
  exact ⟨rfl, quiet_note _ noting⟩

theorem paintTexture_wrote {d : TextureDraw} {g : Guard} {u : Unit}
    (h : p.paintTexture α d g σ = .ok u σ') : p.Wrote σ.store σ'.store := by
  unfold paintTexture at h
  cases found : TextureDraw.sourceTexels d.effectiveSource g.buffer.width g.buffer.height with
  | none =>
    simp only [found] at h
    exact .inl (quiet_note _ h)
  | some source =>
    simp only [found] at h
    by_cases visible : (!(covered d.effectiveTarget p.bounds d.clip).isEmpty) = true
    · simp only [visible, ↓reduceIte] at h
      obtain ⟨u, σ₁, noting, rest⟩ := bind_ok h
      obtain ⟨s, σ₂, reading, painting⟩ := bind_ok rest
      obtain ⟨rfl, rfl⟩ := get_ok reading
      have wrote := paint_wrote painting
      rw [quiet_note _ noting] at wrote
      exact wrote
    · simp only [visible] at h
      exact .inl (quiet_pure _ h)

theorem drawTexture_touches {d : TextureDraw} (h : p.drawTexture α d σ = .ok p' σ') (k : Holding) :
    p'.target = p.target ∧ Store.Touches k p.target.buffer.id σ.store σ'.store := by
  unfold drawTexture at h
  cases source : d.texture with
  | remote width height =>
    rw [source] at h
    obtain ⟨target, same⟩ := skip_ok h
    exact ⟨target, same ▸ .refl k _ _⟩
  | stored b =>
    rw [source] at h
    obtain ⟨opened, σ₁, opening, rest⟩ := bind_ok h
    obtain ⟨g, rfl, granted⟩ | ⟨cause, rfl, same⟩ := openAccess_result opening
    · obtain ⟨u, σ₂, painting, rest⟩ := bind_ok rest
      obtain ⟨u, σ₃, closing, rest⟩ := bind_ok rest
      obtain ⟨rfl, rfl⟩ := pure_ok rest
      have wrote := paintTexture_wrote (unwinding_ok.1 painting)
      refine ⟨rfl, ?_⟩
      rw [closeAccess_ok closing]
      exact .access granted wrote.touches wrote.absent
    · obtain ⟨target, same'⟩ := skip_ok rest
      rw [same'.trans same]
      exact ⟨target, .refl k _ _⟩

theorem fillRect_wrote {fill : RectFill} (h : p.fillRect fill σ = .ok p' σ') :
    p'.target = p.target ∧ p.Wrote σ.store σ'.store := by
  unfold fillRect at h
  obtain ⟨u, σ₁, noting, rest⟩ := bind_ok h
  dsimp only at rest
  by_cases painted : (!(covered fill.target p.bounds fill.clip).isEmpty) = true
  · simp only [painted, ↓reduceIte] at rest
    obtain ⟨u, σ₂, painting, rest⟩ := bind_ok rest
    obtain ⟨rfl, rfl⟩ := pure_ok rest
    have wrote := paint_wrote painting
    rw [quiet_note _ noting] at wrote
    exact ⟨rfl, wrote⟩
  · simp only [painted] at rest
    obtain ⟨rfl, rfl⟩ := pure_ok rest
    exact ⟨rfl, .inl (quiet_note _ noting)⟩

theorem stroke_touches {stroke : Stroke} (h : p.stroke α stroke σ = .ok p' σ') (k : Holding) :
    p'.target = p.target ∧ Store.Touches k p.target.buffer.id σ.store σ'.store := by
  cases stroke with
  | texture d => exact drawTexture_touches h k
  | fill fill =>
    obtain ⟨target, wrote⟩ := fillRect_wrote h
    exact ⟨target, wrote.touches k⟩
  | pause span =>
    obtain ⟨u, σ₁, pausing, rest⟩ := bind_ok h
    obtain ⟨rfl, rfl⟩ := pure_ok rest
    exact ⟨rfl, quiet_pause span pausing ▸ .refl k _ _⟩

/-- Whatever is drawn, only the pixels of the destination change. -/
theorem strokes_touches {strokes : List Stroke} {stats : List PassTally}
    (h : p.strokes α strokes σ = .ok (p', stats) σ') (k : Holding) :
    p'.target = p.target ∧ Store.Touches k p.target.buffer.id σ.store σ'.store := by
  induction strokes generalizing p σ stats with
  | nil =>
    obtain ⟨same, rfl⟩ := pure_ok h
    cases same
    exact ⟨rfl, .refl k _ _⟩
  | cons s rest ih =>
    obtain ⟨p₁, σ₁, first, next⟩ := bind_ok h
    obtain ⟨⟨last, later⟩, σ₂, others, ending⟩ := bind_ok next
    obtain ⟨same, rfl⟩ := pure_ok ending
    cases same
    obtain ⟨target, touches⟩ := stroke_touches first k
    obtain ⟨target', touches'⟩ := ih others
    rw [target] at target' touches'
    exact ⟨target', touches.trans touches'⟩

/-- Finishing gives the destination back, whether or not the pass is timed. -/
theorem finish_ok {span : Option Duration} (h : p.finish σ = .ok span σ') :
    σ'.store = σ.store.closeAccess p.target := by
  unfold finish at h
  cases timed : p.started with
  | none =>
    simp only [timed, pure_bind] at h
    obtain ⟨u, σ₁, noting, next⟩ := bind_ok h
    obtain ⟨u, σ₂, closing, ending⟩ := bind_ok next
    obtain ⟨rfl, rfl⟩ := pure_ok ending
    rw [closeAccess_ok closing, quiet_note _ noting]
  | some start =>
    simp only [timed] at h
    obtain ⟨span, σ₁, timing, next⟩ := bind_ok h
    obtain ⟨u, σ₂, noting, next'⟩ := bind_ok next
    obtain ⟨u, σ₃, closing, ending⟩ := bind_ok next'
    obtain ⟨rfl, rfl⟩ := pure_ok ending
    rw [closeAccess_ok closing, quiet_note _ noting, quiet_now.map _ timing]

theorem total_discard (p : Pass) : Total p.discard :=
  total_modifyStore (·.closeAccess p.target)

theorem total_finish (p : Pass) : Total p.finish := by
  unfold finish
  cases timed : p.started with
  | none =>
    simp only [pure_bind]
    exact (total_note _).bind fun _ => p.total_discard.bind fun _ => total_pure _
  | some start =>
    simp only [map_eq_pure_bind, bind_assoc, pure_bind]
    exact total_now.bind fun _ => (total_note _).bind fun _ =>
      p.total_discard.bind fun _ => total_pure _

end Pass

end Compositor
