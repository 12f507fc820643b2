import Compositor.Output.Config
import Compositor.Proofs.Output.Staging

/-!
# Configurations from changes

Applying a request replaces the fields that its changes set, and leaves the others. So requests
that are applied one after the other come to the same as one request with all their changes: each
field has the value it was last set to. Changes that are refused count for nothing.
-/

namespace Compositor

open Change

/-- A change that is to be staged, and the memory that there is at that moment. -/
structure Attempt where
  change : Change
  memory : Memory

namespace Attempt

def isAccepted (a : Attempt) : Bool := a.change.isAccepted a.memory

/-- The changes that are accepted. -/
def accepted (attempts : List Attempt) : List Change :=
  (attempts.filter isAccepted).map (·.change)

theorem accepted_append (first second : List Attempt) :
    accepted (first ++ second) = accepted first ++ accepted second := by
  rw [accepted, List.filter_append, List.map_append]
  rfl

end Attempt

namespace OutputDraft

/-- A new draft after a list of attempts; it goes on with what each of them leaves. -/
def collect (s : Store) (attempts : List Attempt) : OutputDraft × Store :=
  attempts.foldl (fun m a => (m.1.attempt m.2 a.change a.memory).2) (new, s)

/-- The changes that are refused are not recorded. -/
theorem attempt_records {d : OutputDraft} {made : List Change} (records : d.staged.Records made)
    (s : Store) (a : Attempt) :
    (d.attempt s a.change a.memory).2.1.staged.Records (made ++ Attempt.accepted [a]) := by
  rcases tried : d.attempt s a.change a.memory with ⟨result, d', s'⟩
  cases result with
  | ok =>
    obtain ⟨set, -⟩ := attempt_ok tried
    have accepted : a.isAccepted = true := Staged.exists_set_eq_ok.1 ⟨_, set⟩
    rw [Attempt.accepted, List.filter_cons_of_pos accepted]
    exact records.set set
  | error cause =>
    obtain ⟨set, rfl, -⟩ := attempt_error tried
    have refused : ¬a.isAccepted = true := by
      intro accepted
      obtain ⟨_, accepted⟩ := Staged.exists_set_eq_ok.2 accepted
      cases accepted.symm.trans set
    rw [Attempt.accepted, List.filter_cons_of_neg refused]
    rwa [List.filter_nil, List.map_nil, List.append_nil]

theorem collect_records (s : Store) (attempts : List Attempt) :
    (collect s attempts).1.staged.Records (Attempt.accepted attempts) := by
  suffices all : ∀ (m : OutputDraft × Store) made, m.1.staged.Records made →
      (attempts.foldl (fun m a => (m.1.attempt m.2 a.change a.memory).2) m).1.staged.Records
        (made ++ Attempt.accepted attempts) from
    all (new, s) [] Staged.records_nothing
  induction attempts with
  | nil => exact fun m made records => by simpa [Attempt.accepted] using records
  | cons a attempts ih =>
    intro m made records
    have rest := ih _ _ (attempt_records records m.2 a)
    rwa [List.append_assoc, ← Attempt.accepted_append, List.singleton_append] at rest

end OutputDraft

namespace OutputConfig

/-- A configuration with some fields set anew. -/
def overlay (c : OutputConfig) (set : (f : Field) → Option f.Value) : OutputConfig where
  enabled := (set .enabled).getD c.enabled
  mode := (set .mode).getD c.mode
  scale := (set .scale).getD c.scale
  transform := (set .transform).getD c.transform
  adaptiveSync := (set .adaptiveSync).getD c.adaptiveSync
  renderFormat := (set .renderFormat).getD c.renderFormat
  subpixel := (set .subpixel).getD c.subpixel
  front := (set .buffer).getD c.front
  gammaSize := ((set .gamma).map (·.size)).getD c.gammaSize

theorem overlay_overlay (c : OutputConfig) (first second : (f : Field) → Option f.Value) :
    (c.overlay first).overlay second = c.overlay fun f => (second f).or (first f) := by
  simp only [overlay, Option.getD_or, Option.map_or]

/-- What a request says of a field is what its changes last set it to. -/
theorem pick_eq {s : Staged} {made : List Change} (records : s.Records made) (f : Field)
    (old : f.Value) :
    (if s.mask.contains f then s.value f else old) = (latest made f).getD old := by
  cases bit : s.mask.contains f with
  | false => rw [records.latest_of_not_contains bit, Option.getD_none, if_neg Bool.false_ne_true]
  | true => rw [records.latest_of_contains bit, Option.getD_some, if_pos rfl]

theorem apply_eq_overlay {r : OutputRequest} {made : List Change} (records : r.staged.Records made)
    (c : OutputConfig) : c.apply r = c.overlay (latest made) := by
  have picked (f : Field) (old : f.Value) := pick_eq records f old
  have size := congrArg GammaTable.size (picked .gamma ⟨c.gammaSize, []⟩)
  rw [apply_ite GammaTable.size, ← Option.getD_map GammaTable.size] at size
  simp only [apply, overlay, OutputConfig.mk.injEq, OutputSettings.mk.injEq]
  exact ⟨⟨picked .enabled _, picked .mode _, picked .scale _, picked .transform _,
    picked .adaptiveSync _, picked .renderFormat _, picked .subpixel _, size⟩, picked .buffer _⟩

/-- Two requests that are applied in turn come to the same as one with the changes of both, whatever
the stores and the memory: each field has the value it was last set to, and its old one if it was
not set. A change that is refused sets nothing. -/
theorem updates_fold_changes (c : OutputConfig) (first second : List Attempt)
    (s₁ s₂ s₃ t₁ t₂ t₃ : Store) :
    let a := (OutputDraft.collect s₁ first).1.freeze
    let b := (OutputDraft.collect s₂ second).1.freeze
    let both := (OutputDraft.collect s₃ (first ++ second)).1.freeze
    let set := latest (Attempt.accepted (first ++ second))
    ((c.update t₁ a).1.update t₂ b).1 = (c.update t₃ both).1 ∧
      (c.update t₃ both).1 =
        { enabled := (set .enabled).getD c.enabled
          mode := (set .mode).getD c.mode
          scale := (set .scale).getD c.scale
          transform := (set .transform).getD c.transform
          adaptiveSync := (set .adaptiveSync).getD c.adaptiveSync
          renderFormat := (set .renderFormat).getD c.renderFormat
          subpixel := (set .subpixel).getD c.subpixel
          front := (set .buffer).getD c.front
          gammaSize := ((set .gamma).map (·.size)).getD c.gammaSize } := by
  intro a b both set
  have one : c.apply a = c.overlay (latest (Attempt.accepted first)) :=
    apply_eq_overlay (OutputDraft.collect_records s₁ first) c
  have two (c : OutputConfig) : c.apply b = c.overlay (latest (Attempt.accepted second)) :=
    apply_eq_overlay (OutputDraft.collect_records s₂ second) c
  have whole : c.apply both = c.overlay set :=
    apply_eq_overlay (OutputDraft.collect_records s₃ (first ++ second)) c
  refine ⟨?_, whole⟩
  change (c.apply a).apply b = c.apply both
  rw [one, two, whole, overlay_overlay]
  simp only [← latest_append, ← Attempt.accepted_append]
  rfl

/-- A table with a plane too short leaves the one that was staged before, and so does one that there
is no memory for. -/
example : (OutputDraft.collect Store.empty [⟨.gamma 1 [1] [2] [3], .ofSize 6 (by decide)⟩,
    ⟨.gamma 2 [1, 2] [3] [4, 5], .ofSize 12 (by decide)⟩,
    ⟨.gamma 2 [1, 2] [3, 4] [5, 6], .ofSize 6 (by decide)⟩]).1.staged.gamma = [1, 2, 3] := by
  decide

end OutputConfig

end Compositor
