import Compositor.Output.Change

/-!
# What staged changes record

A change sets one field to one value. Staged changes record a list of accepted changes: a field has
the value it was last set to, or its default if it was not set, and the mask says which it is. That
is all there is to them, so whatever else they keep to can be read off the list.
-/

namespace Compositor

/-- So many samples for each channel: the red ones, then the green ones, then the blue ones. -/
structure GammaTable where
  size : Nat
  samples : List UInt16
deriving DecidableEq, Repr

/-- What a field can be set to. -/
@[reducible] def Field.Value : Field → Type
  | .enabled | .adaptiveSync => Bool
  | .mode => Option Mode
  | .scale => Float32
  | .transform => Transform
  | .renderFormat => PixelFormat
  | .subpixel => Subpixel
  | .buffer => Option Buffer
  | .damage => Region
  | .gamma => GammaTable
  | .layers => Option LayerSetId

namespace Change

def field : Change → Field
  | .enabled _ => .enabled
  | .mode .. | .customMode .. => .mode
  | .scale _ => .scale
  | .transform _ => .transform
  | .adaptiveSync _ => .adaptiveSync
  | .renderFormat _ => .renderFormat
  | .subpixel _ => .subpixel
  | .buffer _ => .buffer
  | .damage _ => .damage
  | .layers _ => .layers
  | .gamma .. => .gamma

/-- What a change sets its field to. -/
def value : (c : Change) → c.field.Value
  | .enabled on => on
  | .mode width height refresh preferred => some ⟨.fixed preferred, width, height, refresh⟩
  | .customMode width height refresh => some ⟨.custom, width, height, refresh⟩
  | .scale factor => factor
  | .transform turn => turn
  | .adaptiveSync on => on
  | .renderFormat format => format
  | .subpixel order => order
  | .buffer b => b
  | .damage region => region
  | .layers set => some set
  | .gamma size red green blue => ⟨size, if size = 0 then [] else red ++ green ++ blue⟩

/-- What a change sets a given field to, if it sets that one. -/
def value? (c : Change) (f : Field) : Option f.Value :=
  if same : c.field = f then some (same ▸ c.value) else none

/-- A gamma table has to be empty, or there is memory for it and its planes have its size; any other
change can be staged. -/
def isAccepted (memory : Memory) : Change → Bool
  | .gamma size red green blue =>
    size = 0 || (memory.reserves (2 * (3 * size)) && red.length = size && green.length = size &&
      blue.length = size)
  | _ => true

theorem isAccepted_gamma {memory : Memory} {size : Nat} {red green blue : List UInt16} :
    (Change.gamma size red green blue).isAccepted memory = true ↔
      size = 0 ∨ memory.reserves (2 * (3 * size)) = true ∧ red.length = size ∧
        green.length = size ∧ blue.length = size := by
  simp [isAccepted, and_assoc]

/-- What a field was last set to by a list of changes, if they set it. -/
def latest (changes : List Change) (f : Field) : Option f.Value :=
  (changes.filterMap (·.value? f)).getLast?

theorem value?_isSome {c : Change} {f : Field} : (c.value? f).isSome = true ↔ c.field = f := by
  unfold value?
  split <;> simp [*]

/-- A mode can be set, but not taken back. -/
theorem mode_isSome_of_value? {c : Change} {m : Option Mode} (sets : c.value? .mode = some m) :
    m.isSome = true := by
  cases c with
  | mode | customMode =>
    cases sets
    rfl
  | _ => cases sets

theorem latest_append (first second : List Change) (f : Field) :
    latest (first ++ second) f = (latest second f).or (latest first f) := by
  rw [latest, List.filterMap_append, List.getLast?_append]
  rfl

theorem latest_singleton (c : Change) (f : Field) : latest [c] f = c.value? f := by
  cases found : c.value? f <;> simp [latest, found]

theorem exists_of_latest {changes : List Change} {f : Field} {v : f.Value}
    (h : latest changes f = some v) : ∃ c ∈ changes, c.value? f = some v :=
  List.mem_filterMap.1 (List.mem_of_getLast? h)

theorem latest_isSome {changes : List Change} {f : Field} :
    (latest changes f).isSome = true ↔ ∃ c ∈ changes, c.field = f := by
  rw [latest, List.getLast?_isSome, ne_eq, List.filterMap_eq_nil_iff]
  simp [← value?_isSome, Option.isSome_iff_ne_none]

end Change

namespace Staged

open Change

def value (s : Staged) : (f : Field) → f.Value
  | .enabled => s.enabled
  | .mode => s.mode
  | .scale => s.scale
  | .transform => s.transform
  | .adaptiveSync => s.adaptiveSync
  | .renderFormat => s.renderFormat
  | .subpixel => s.subpixel
  | .buffer => s.buffer
  | .damage => s.damage
  | .gamma => ⟨s.gammaSize, s.gamma⟩
  | .layers => s.layers

variable {s s' : Staged} {memory : Memory} {c : Change} {made : List Change} {f : Field}

theorem gammaTable_eq {size : Nat} (positive : size ≠ 0) (red green blue : List UInt16) :
    gammaTable memory size red green blue =
      if (Change.gamma size red green blue).isAccepted memory then .ok (red ++ green ++ blue)
      else
        .error (if memory.reserves (2 * (3 * size)) then .planeLength else .allocation size) := by
  unfold gammaTable
  cases granted : memory.reserves (2 * (3 * size)) with
  | false => simp [isAccepted, positive, granted]
  | true =>
    -- What is granted can be addressed, so its size was no overflow.
    have addressed := Memory.le_capacity_of_reserves granted
    have fits : ¬UInt64.size ≤ 3 * size := by
      unfold Store.capacity at addressed
      omega
    by_cases planes : red.length = size ∧ green.length = size ∧ blue.length = size
    · simp [isAccepted, granted, fits, planes]
    · have differ : red.length ≠ size ∨ green.length ≠ size ∨ blue.length ≠ size := by omega
      simp [isAccepted_gamma, granted, fits, positive, planes, differ]

theorem stage_gamma (s : Staged) (size : Nat) (red green blue : List UInt16) :
    stage memory (.gamma size red green blue) s =
      if (Change.gamma size red green blue).isAccepted memory then
        .ok () { s with
          mask := s.mask.insert .gamma
          gammaSize := size
          gamma := if size = 0 then [] else red ++ green ++ blue }
      else
        .error (if memory.reserves (2 * (3 * size)) then .planeLength else .allocation size) s := by
  by_cases none : size = 0
  · subst none
    rfl
  · simp only [stage, none, if_false, gammaTable_eq none]
    split <;> rfl

/-- A change that is accepted sets its field and its bit, and no others. -/
theorem set_ok (h : s.set c memory = .ok s') :
    s'.mask = s.mask.insert c.field ∧ (∀ f, s'.value f = (c.value? f).getD (s.value f)) ∧
      s'.reconfigures = (c.field == .enabled || (c.field == .mode || s.reconfigures)) := by
  unfold set at h
  cases c with
  | gamma size red green blue =>
    rw [stage_gamma] at h
    cases accepted : (Change.gamma size red green blue).isAccepted memory with
    | false =>
      rw [accepted] at h
      cases h
    | true =>
      rw [accepted] at h
      cases h
      refine ⟨rfl, fun f => ?_, rfl⟩
      cases f <;> rfl
  | _ =>
    cases h
    refine ⟨rfl, fun f => ?_, rfl⟩
    cases f <;> rfl

theorem exists_set_eq_ok : (∃ s', s.set c memory = .ok s') ↔ c.isAccepted memory = true := by
  unfold set
  cases c with
  | gamma size red green blue =>
    rw [stage_gamma]
    cases (Change.gamma size red green blue).isAccepted memory <;> simp
  | _ => exact ⟨fun _ => rfl, fun _ => ⟨_, rfl⟩⟩

/-- A change that is refused leaves all fields and the mask as they were. -/
theorem stage_error {cause : GammaError} (h : stage memory c s = .error cause s') : s' = s := by
  cases c with
  | gamma size red green blue =>
    rw [stage_gamma] at h
    split at h
    · cases h
    · cases h
      rfl
  | _ => cases h

/-- Staged changes are what these changes come to. -/
structure Records (s : Staged) (made : List Change) : Prop where
  accepted : ∀ c ∈ made, ∃ memory, c.isAccepted memory = true
  mask : ∀ f, s.mask.contains f = true ↔ ∃ c ∈ made, c.field = f
  value : ∀ f, s.value f = (latest made f).getD (Staged.value {} f)
  reconfigures : s.reconfigures = true ↔
    s.mask.contains .enabled = true ∨ s.mask.contains .mode = true

theorem records_nothing : Records {} [] where
  accepted _ mem := by cases mem
  mask f := by simp
  value f := rfl
  reconfigures := by simp

namespace Records

theorem set (records : s.Records made) (h : s.set c memory = .ok s') :
    s'.Records (made ++ [c]) := by
  obtain ⟨mask, value, reconfigures⟩ := set_ok h
  have contains (f : Field) :
      s'.mask.contains f = true ↔ s.mask.contains f = true ∨ c.field = f := by
    rw [mask, FieldMask.contains_insert, Bool.or_eq_true, beq_iff_eq]
  refine ⟨?_, fun f => ?_, fun f => ?_, ?_⟩
  · intro other mem
    rcases List.mem_append.1 mem with before | new
    · exact records.accepted other before
    · rw [List.mem_singleton.1 new]
      exact ⟨memory, exists_set_eq_ok.1 ⟨s', h⟩⟩
  · rw [contains, records.mask]
    simp [or_and_right, exists_or]
  · rw [value, records.value, latest_append, latest_singleton, Option.getD_or]
  · rw [reconfigures, contains, contains]
    simp only [Bool.or_eq_true, beq_iff_eq, records.reconfigures]
    grind

theorem latest_of_contains (records : s.Records made) (bit : s.mask.contains f = true) :
    latest made f = some (s.value f) := by
  obtain ⟨v, found⟩ := Option.isSome_iff_exists.1 (latest_isSome.2 ((records.mask f).1 bit))
  rw [records.value, found, Option.getD_some]

theorem latest_of_not_contains (records : s.Records made) (bit : s.mask.contains f = false) :
    latest made f = none := by
  rw [← Option.not_isSome_iff_eq_none, latest_isSome, ← records.mask, bit]
  exact Bool.false_ne_true

theorem default_of_not_contains (records : s.Records made) (bit : s.mask.contains f = false) :
    s.value f = Staged.value {} f := by
  rw [records.value, records.latest_of_not_contains bit, Option.getD_none]

theorem mode_isSome (records : s.Records made) :
    s.mode.isSome = true ↔ s.mask.contains .mode = true := by
  cases bit : s.mask.contains .mode with
  | false =>
    have unset : s.mode = none := records.default_of_not_contains bit
    simp [unset]
  | true =>
    obtain ⟨c, -, sets⟩ := exists_of_latest (records.latest_of_contains bit)
    exact iff_of_true (mode_isSome_of_value? sets) rfl

theorem contains_of_buffer (records : s.Records made) (attached : s.buffer.isSome = true) :
    s.mask.contains .buffer = true := by
  rw [← Bool.not_eq_false]
  intro bit
  have unset : s.buffer = none := records.default_of_not_contains bit
  simp [unset] at attached

/-- A gamma table that was accepted is as long as its planes together. -/
theorem gamma_planes (records : s.Records made) :
    ∃ red green blue, s.gamma = red ++ green ++ blue ∧ red.length = s.gammaSize ∧
      green.length = s.gammaSize ∧ blue.length = s.gammaSize := by
  cases bit : s.mask.contains .gamma with
  | false =>
    have unset : s.value .gamma = ⟨0, []⟩ := records.default_of_not_contains bit
    obtain ⟨size, samples⟩ := GammaTable.mk.inj unset
    exact ⟨[], [], [], by rw [samples]; rfl, size.symm, size.symm, size.symm⟩
  | true =>
    obtain ⟨c, mem, sets⟩ := exists_of_latest (records.latest_of_contains bit)
    obtain ⟨memory, accepted⟩ := records.accepted c mem
    cases c with
    | gamma size red green blue =>
      obtain ⟨rfl, samples⟩ := GammaTable.mk.inj (Option.some.inj sets)
      by_cases none : s.gammaSize = 0
      · rw [if_pos none] at samples
        exact ⟨[], [], [], samples.symm, none.symm, none.symm, none.symm⟩
      · rw [if_neg none] at samples
        obtain ⟨-, planes⟩ := (isAccepted_gamma.1 accepted).resolve_left none
        exact ⟨red, green, blue, samples.symm, planes⟩
    | _ => cases sets

end Records

end Staged

/-- What a copy has in memory of its own is the same. -/
theorem Staged.copy_ok {s s' : Staged} {memory : Memory} (h : s.copy memory = .ok s') : s' = s := by
  unfold copy at h
  split at h
  · exact (Except.ok.inj h).symm
  · cases h

namespace OutputDraft

variable {d d' source : OutputDraft} {s s' : Store} {c : Change} {memory : Memory}

theorem attempt_ok {u : Unit} (h : d.attempt s c memory = (.ok u, d', s')) :
    d.staged.set c memory = .ok d'.staged ∧
      s' = s.exchange d.staged.holding d'.staged.holding := by
  unfold attempt at h
  unfold Staged.set
  cases result : Staged.stage memory c d.staged with
  | ok _ staged =>
    rw [result] at h
    cases h
    exact ⟨rfl, rfl⟩
  | error cause staged =>
    rw [result] at h
    cases h

/-- A change that is refused leaves the draft and the store as they were. -/
theorem attempt_error {cause : GammaError} (h : d.attempt s c memory = (.error cause, d', s')) :
    d.staged.set c memory = .error cause ∧ d' = d ∧ s' = s := by
  unfold attempt at h
  unfold Staged.set
  cases result : Staged.stage memory c d.staged with
  | ok _ staged =>
    rw [result] at h
    cases h
  | error cause staged =>
    rw [result] at h
    cases h
    exact ⟨rfl, congrArg OutputDraft.mk (Staged.stage_error result), rfl⟩

theorem tryClone_ok (h : d.tryClone s memory = .ok (d', s')) :
    d' = d ∧ s' = s.acquire d.staged.holding := by
  unfold tryClone at h
  cases copied : d.staged.copy memory with
  | ok staged =>
    rw [copied, Staged.copy_ok copied] at h
    cases h
    exact ⟨rfl, rfl⟩
  | error cause =>
    rw [copied] at h
    cases h

theorem copyFrom_ok {u : Unit} (h : d.copyFrom s source memory = (.ok u, d', s')) :
    d' = source ∧ s' = s.exchange d.staged.holding source.staged.holding := by
  unfold copyFrom at h
  cases copied : source.staged.copy memory with
  | ok staged =>
    rw [copied, Staged.copy_ok copied] at h
    cases h
    exact ⟨rfl, rfl⟩
  | error cause =>
    rw [copied] at h
    cases h

/-- A draft that cannot take over the changes of another keeps its own. -/
theorem copyFrom_error {cause : CopyError}
    (h : d.copyFrom s source memory = (.error cause, d', s')) : d' = d ∧ s' = s := by
  unfold copyFrom at h
  cases copied : source.staged.copy memory with
  | ok staged =>
    rw [copied] at h
    cases h
  | error cause =>
    rw [copied] at h
    cases h
    exact ⟨rfl, rfl⟩

end OutputDraft

theorem OutputRequest.tryClone_ok {r r' : OutputRequest} {s s' : Store} {memory : Memory}
    (h : r.tryClone s memory = .ok (r', s')) : r' = r ∧ s' = s.acquire r.staged.holding := by
  unfold tryClone at h
  cases copied : r.staged.copy memory with
  | ok staged =>
    rw [copied, Staged.copy_ok copied] at h
    cases h
    exact ⟨rfl, rfl⟩
  | error cause =>
    rw [copied] at h
    cases h

end Compositor
