import Compositor.Output.Headless

/-!
# What a display accepts

The answer of a display depends on its configuration and the request alone, not on the store, so a
test tells what a commit will answer. A rejected commit leaves the display as it was. Over a run of
tests and commits the configuration is therefore what the accepted requests add up to.
-/

namespace Compositor

/-- What a display can be asked. -/
inductive DisplayCall where
  | test (r : OutputRequest)
  | commit (r : OutputRequest)

/-- A display in use. -/
structure DisplayRun where
  display : HeadlessDisplay
  store : Store
  /-- The requests whose commit was answered with yes, the oldest first. -/
  accepted : List OutputRequest

namespace HeadlessDisplay

variable {d : HeadlessDisplay} {r : OutputRequest}

theorem accepted_test (d : HeadlessDisplay) (s : Store) (r : OutputRequest) :
    (d.test s r).accepted = (d.mismatch? r).isNone := by
  unfold test
  dsimp only
  cases d.mismatch? r <;> rfl

/-- A test never changes the display, whatever it answers. -/
theorem display_test (d : HeadlessDisplay) (s : Store) (r : OutputRequest) :
    (d.test s r).display = d := by
  unfold test
  dsimp only
  cases d.mismatch? r <;> rfl

/-- A request is rejected only if its buffer does not have the size of the mode it would have. -/
theorem mismatch?_isSome : (d.mismatch? r).isSome = true ↔ ∃ b m,
    r.staged.buffer = some b ∧ d.pendingMode r = some m ∧
      ((b.width.toNat : Int) ≠ m.width.toInt ∨ (b.height.toNat : Int) ≠ m.height.toInt) := by
  unfold mismatch?
  cases r.staged.buffer with
  | none => simp
  | some b =>
    cases d.pendingMode r with
    | none => simp
    | some m =>
      dsimp only
      split <;> simp <;> omega

theorem commit_rejected {s : Store} (h : (d.test s r).accepted = false) :
    (d.commit s r).1 = d ∧ (d.commit s r).2.accepted = false := by
  unfold commit
  dsimp only
  rw [h, display_test]
  exact ⟨rfl, rfl⟩

theorem commit_accepted {s : Store} (h : (d.test s r).accepted = true) :
    (d.commit s r).1 = { d with config := d.config.apply r, commits := d.commits + 1 } ∧
      (d.commit s r).2.accepted = true := by
  unfold commit
  dsimp only
  rw [h, display_test]
  exact ⟨rfl, rfl⟩

end HeadlessDisplay

namespace DisplayRun

def step (u : DisplayRun) : DisplayCall → DisplayRun
  | .test r =>
    let tested := u.display.test u.store r
    { u with display := tested.display, store := tested.store }
  | .commit r =>
    let (display, answer) := u.display.commit u.store r
    { display, store := answer.store
      accepted := if answer.accepted then u.accepted ++ [r] else u.accepted }

def run (output : OutputId) (acceptsLayers : Bool) (s : Store) (calls : List DisplayCall) :
    DisplayRun :=
  calls.foldl step ⟨.new output acceptsLayers, s, []⟩

/-- What a test changes is the store alone. -/
theorem step_test (u : DisplayRun) (r : OutputRequest) :
    u.step (.test r) = { u with store := (u.display.test u.store r).store } := by
  unfold step
  dsimp only
  rw [HeadlessDisplay.display_test]

/-- The configuration is what the accepted requests add up to, and they are counted. -/
def Folds (u : DisplayRun) : Prop :=
  u.display.config = u.accepted.foldl OutputConfig.apply {} ∧
    u.display.commits = u.accepted.length

theorem Folds.step {u : DisplayRun} (folds : u.Folds) (call : DisplayCall) :
    (u.step call).Folds := by
  cases call with
  | test r =>
    rw [step_test]
    exact folds
  | commit r =>
    unfold DisplayRun.step
    dsimp only
    cases answer : (u.display.test u.store r).accepted with
    | false =>
      obtain ⟨same, rejected⟩ := HeadlessDisplay.commit_rejected answer
      rw [Folds, same, rejected]
      exact folds
    | true =>
      obtain ⟨changed, accepted⟩ := HeadlessDisplay.commit_accepted answer
      rw [Folds, changed, accepted]
      obtain ⟨config, commits⟩ := folds
      simp [config, commits]

theorem folds_run (output : OutputId) (acceptsLayers : Bool) (s : Store)
    (calls : List DisplayCall) : (run output acceptsLayers s calls).Folds := by
  suffices all : ∀ u : DisplayRun, u.Folds → (calls.foldl DisplayRun.step u).Folds from
    all _ ⟨rfl, rfl⟩
  induction calls with
  | nil => exact fun _ folds => folds
  | cons call calls ih => exact fun u folds => ih _ (folds.step call)

/-- Whatever a display was asked before, a test leaves it as it is and tells what a commit will
answer, and that is no only if the request has a buffer, a mode is known, and the sizes differ. A
commit either is accepted, and then the request is applied and counted, or leaves the display as it
was. So its configuration is what the accepted requests add up to. -/
theorem commits_follow_tests (output : OutputId) (acceptsLayers : Bool) (s : Store)
    (calls : List DisplayCall) (r : OutputRequest) :
    let u := run output acceptsLayers s calls
    let d := u.display
    (u.step (.test r)).display = d ∧
      (∀ t t', (d.commit t r).2.accepted = (d.test t' r).accepted) ∧
      (∀ t, (d.test t r).accepted = false ↔ ∃ b m, r.staged.buffer = some b ∧
        (if r.staged.mask.contains .mode then r.staged.mode else d.config.mode) = some m ∧
          ((b.width.toNat : Int) ≠ m.width.toInt ∨ (b.height.toNat : Int) ≠ m.height.toInt)) ∧
      (∀ t, (d.commit t r).1 =
        if (d.commit t r).2.accepted then
          { d with config := d.config.apply r, commits := d.commits + 1 }
        else d) ∧
      d.config = u.accepted.foldl OutputConfig.apply {} ∧ d.commits = u.accepted.length := by
  intro u d
  have answers (t t' : Store) : (d.commit t r).2.accepted = (d.test t' r).accepted := by
    rw [d.accepted_test t' r, ← d.accepted_test t r]
    cases answer : (d.test t r).accepted with
    | false => exact (HeadlessDisplay.commit_rejected answer).2
    | true => exact (HeadlessDisplay.commit_accepted answer).2
  refine ⟨d.display_test u.store r, answers, fun t => ?_, fun t => ?_,
    folds_run output acceptsLayers s calls⟩
  · rw [d.accepted_test, Option.isNone_eq_false_iff]
    exact HeadlessDisplay.mismatch?_isSome
  · rw [answers t t]
    cases answer : (d.test t r).accepted with
    | false => exact (HeadlessDisplay.commit_rejected answer).1
    | true => exact (HeadlessDisplay.commit_accepted answer).1

end DisplayRun

end Compositor
