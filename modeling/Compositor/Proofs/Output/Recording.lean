import Compositor.Proofs.Output.Client

/-!
# Drafts and requests record their changes

However drafts are changed, cleared, copied and frozen, and requests copied and reopened, each of
them records the changes that were accepted since it was new or cleared, those of its source
included. A change that is refused is not there at all: it leaves the whole program as it was.
-/

namespace Compositor

open Change

/-- A draft or a request records the changes that stand beside it. -/
def Owned.Recorded : Owned → Prop
  | draft d made => d.staged.Records made
  | request r made => r.staged.Records made
  | _ => True

namespace OutputClient

/-- The program has these staged changes, in a draft or in a request. -/
def Stages (p : OutputClient) (s : Staged) (made : List Change) : Prop :=
  .draft ⟨s⟩ made ∈ p.owned ∨ .request ⟨s⟩ made ∈ p.owned

def Recorded (p : OutputClient) : Prop := ∀ thing ∈ p.owned, thing.Recorded

variable {p p' : OutputClient} {thing : Owned} {i : Nat} {s : Store}

theorem Recorded.gain (recorded : p.Recorded) (new : thing.Recorded) :
    (p.gain thing s).Recorded := by
  intro other mem
  rcases List.mem_append.1 mem with old | last
  · exact recorded other old
  · exact List.mem_singleton.1 last ▸ new

theorem Recorded.put (recorded : p.Recorded) (new : thing.Recorded) :
    (p.put i thing s).Recorded := by
  intro other mem
  rcases List.mem_or_eq_of_mem_set mem with old | rfl
  · exact recorded other old
  · exact new

theorem Moves.recorded (moves : p.Moves p') (recorded : p.Recorded) : p'.Recorded := by
  cases moves with
  | idle => exact recorded
  | made | stacked => exact recorded.gain trivial
  | begun thing blank =>
    rcases blank with rfl | rfl | ⟨output, acceptsLayers, rfl⟩
    · exact recorded.gain Staged.records_nothing
    · exact recorded.gain trivial
    · exact recorded.gain trivial
  | copied thing mem => exact recorded.gain (recorded thing mem)
  | dropped | updated => exact recorded.put trivial
  | changed i d d' made c memory found provided set =>
    have before : d.staged.Records made := recorded _ (List.mem_of_getElem? found)
    exact recorded.put (before.set set)
  | cleared => exact recorded.put Staged.records_nothing
  | replaced i d d' made made' found source =>
    exact recorded.put (recorded (.draft d' made') source)
  | frozen i d made found =>
    exact recorded.put (recorded (.draft d made) (List.mem_of_getElem? found))
  | reopened i r made found =>
    exact recorded.put (recorded (.request r made) (List.mem_of_getElem? found))
  | tested => exact recorded
  | committed i j d r made found there =>
    have spent : (p.put j .gone p.store).Recorded := recorded.put trivial
    exact spent.put trivial

theorem recorded_run (calls : List OutputCall) : (run calls).Recorded :=
  run_induction (fun _ mem => by cases mem) Moves.recorded calls

theorem Recorded.records (recorded : p.Recorded) {staged : Staged} {made : List Change}
    (stages : p.Stages staged made) : staged.Records made := by
  rcases stages with draft | request
  · exact recorded _ draft
  · exact recorded _ request

section

variable {d d' : OutputDraft} {made : List Change} {memory : Memory}
  (found : p.owned[i]? = some (.draft d made))
include found

/-- A change that is refused leaves the draft and the store as they were, and so the program. -/
theorem step_change_refused {c : Change} {cause : GammaError}
    (refused : d.attempt p.store c memory = (.error cause, d', s)) :
    d' = d ∧ s = p.store ∧ p.step (.change i c memory) = p := by
  obtain ⟨-, rfl, rfl⟩ := OutputDraft.attempt_error refused
  simp only [step, found, refused, put_self found, ite_self, and_self]

/-- So does a draft that cannot take over the changes of another. -/
theorem step_replace_refused {j : Nat} {source : OutputDraft} {made' : List Change}
    {cause : CopyError} (there : p.owned[j]? = some (.draft source made'))
    (refused : d.copyFrom p.store source memory = (.error cause, d', s)) :
    d' = d ∧ s = p.store ∧ p.step (.replace i j memory) = p := by
  obtain ⟨rfl, rfl⟩ := OutputDraft.copyFrom_error refused
  simp only [step, found, there, refused, put_self found, and_self]

end

/-- Whatever a program calls, the changes staged in each of its drafts and requests are those that
were accepted since it was new or last cleared, or that came with its source. The mask has exactly
the bits of the fields that they set; a field has the value it was last set to, and its default if
it was not set. The rest follows: only a request with a mode or a switch may interrupt the picture,
there is a mode or a buffer only with its bit, and a gamma table has its three planes. A change that
is refused leaves everything as it was, and so does a draft whose changes do not fit into memory a
second time. -/
theorem staged_by_its_changes (calls : List OutputCall) :
    let p := run calls
    (∀ s made, p.Stages s made →
      (∀ f, s.mask.contains f = true ↔ ∃ c ∈ made, c.field = f) ∧
      (∀ f, s.mask.contains f = false → s.value f = Staged.value {} f) ∧
      (∀ f, s.mask.contains f = true → latest made f = some (s.value f)) ∧
      (s.reconfigures = true ↔
        s.mask.contains .enabled = true ∨ s.mask.contains .mode = true) ∧
      (s.mode.isSome = true ↔ s.mask.contains .mode = true) ∧
      (s.buffer.isSome = true → s.mask.contains .buffer = true) ∧
      ∃ red green blue, s.gamma = red ++ green ++ blue ∧ red.length = s.gammaSize ∧
        green.length = s.gammaSize ∧ blue.length = s.gammaSize) ∧
    (∀ i d made c memory cause d' s', p.owned[i]? = some (.draft d made) →
      d.attempt p.store c memory = (.error cause, d', s') →
      d' = d ∧ s' = p.store ∧ p.step (.change i c memory) = p) ∧
    ∀ i d made j source made' memory cause d' s', p.owned[i]? = some (.draft d made) →
      p.owned[j]? = some (.draft source made') →
      d.copyFrom p.store source memory = (.error cause, d', s') →
      d' = d ∧ s' = p.store ∧ p.step (.replace i j memory) = p := by
  intro p
  refine ⟨fun s made stages => ?_, ?_, ?_⟩
  · have records := (recorded_run calls).records stages
    exact ⟨records.mask, fun f => records.default_of_not_contains,
      fun f => records.latest_of_contains, records.reconfigures, records.mode_isSome,
      records.contains_of_buffer, records.gamma_planes⟩
  · intro i d made c memory cause d' s' found
    exact step_change_refused found
  · intro i d made j source made' memory cause d' s' found there
    exact step_replace_refused found there

/-- A copy keeps the table of its source, which is then cleared. It refuses a table with a plane too
short, and the cleared draft cannot have it back without memory. -/
theorem copy_keeps_gamma_table :
    let change := Change.gamma 1 [1] [2] [3]
    let memory := Memory.ofSize 12 (by decide)
    let none := Memory.ofSize 0 (by decide)
    let calls : List OutputCall := [.draft, .change 0 change memory, .copy 0 memory, .clear 0]
    let p := run calls
    let s : Staged := { mask := ⟨512⟩, gammaSize := 1, gamma := [1, 2, 3] }
    p.Stages s [change] ∧ s.mask.contains .gamma = true ∧ s.mask.contains .mode = false ∧
      s.mode.isSome = false ∧ s.reconfigures = false ∧
      latest [change] .gamma = some ⟨1, [1, 2, 3]⟩ ∧
      p.step (.change 1 (.gamma 2 [1, 2] [3] [4, 5]) memory) = p ∧
      p.step (.replace 0 1 none) = p := by
  intro change memory none calls p s
  obtain ⟨records, refusals, copies⟩ := staged_by_its_changes calls
  have cleared : p.owned[0]? = some (.draft ⟨{}⟩ []) := rfl
  have found : p.owned[1]? = some (.draft ⟨s⟩ [change]) := rfl
  have stages : p.Stages s [change] := .inl (List.mem_of_getElem? found)
  obtain ⟨mask, -, latest, reconfigures, mode, -, -⟩ := records s [change] stages
  have bit : s.mask.contains .gamma = true :=
    (mask .gamma).2 ⟨change, List.mem_singleton_self change, rfl⟩
  have noMode : s.mask.contains .mode = false := by decide
  refine ⟨stages, bit, noMode, ?_, ?_, latest .gamma bit, ?_, ?_⟩
  · rw [← Bool.not_eq_true, mode, noMode]
    exact Bool.false_ne_true
  · rw [← Bool.not_eq_true, reconfigures, noMode]
    decide
  · exact (refusals 1 ⟨s⟩ [change] (.gamma 2 [1, 2] [3] [4, 5]) memory .planeLength ⟨s⟩ p.store
      found rfl).2.2
  · exact (copies 0 ⟨{}⟩ [] 1 ⟨s⟩ [change] none .allocation ⟨{}⟩ p.store cleared found rfl).2.2

end OutputClient

end Compositor
