import Compositor.Proofs.Draw.Studio

/-!
# Stable reads

The bytes of a buffer change only through a guard that is alive and may write, and while there is
such a guard there is no other one of the same buffer. So what is read through a guard that may not
write stays the same as long as the guard is alive, whatever else is written and drawn meanwhile;
and what was written last is read from then on, also when the guard it was written through has
ended.
-/

namespace Compositor

namespace Studio

variable {α : Type} [Scalar α] {st st' : Studio} {id : BufferId} {g : Guard}

/-- The guard is alive all the time. -/
def Keeps (α : Type) [Scalar α] (st : Studio) (g : Guard) (later : List StudioCall) : Prop :=
  ∀ n, g ∈ (st.runs α (later.take n)).guards

/-- None of the calls writes into the buffer. -/
def Untouched (α : Type) [Scalar α] (st : Studio) (id : BufferId) (later : List StudioCall) :
    Prop :=
  ∀ n call, later[n]? = some call →
    ∀ g ∈ (st.runs α (later.take n)).writes call, g.buffer.id ≠ id

theorem untouched_cons {call : StudioCall} {later : List StudioCall} :
    st.Untouched α id (call :: later) ↔
      (∀ g ∈ st.writes call, g.buffer.id ≠ id) ∧ (st.step α call).Untouched α id later := by
  constructor
  · exact fun all => ⟨all 0 call rfl, fun n => all (n + 1)⟩
  · rintro ⟨first, rest⟩ (_ | n) call' found
    · cases found
      exact first
    · exact rest n call' found

theorem keeps_cons {call : StudioCall} {later : List StudioCall} :
    st.Keeps α g (call :: later) ↔ g ∈ st.guards ∧ (st.step α call).Keeps α g later := by
  constructor
  · exact fun all => ⟨all 0, fun n => all (n + 1)⟩
  · rintro ⟨first, rest⟩ (_ | n)
    · exact first
    · exact rest n

theorem Keeps.last {later : List StudioCall} (keeps : st.Keeps α g later) :
    g ∈ (st.runs α later).guards := by
  simpa using keeps later.length

instance decidableUntouched (α : Type) [Scalar α] (id : BufferId) (later : List StudioCall) :
    ∀ st : Studio, Decidable (st.Untouched α id later) :=
  match later with
  | [] => fun _ => isTrue fun _ _ found => nomatch found
  | _ :: later => fun _ =>
    have := decidableUntouched α id later
    decidable_of_iff _ untouched_cons.symm

instance decidableKeeps (α : Type) [Scalar α] (g : Guard) (later : List StudioCall) :
    ∀ st : Studio, Decidable (st.Keeps α g later) :=
  match later with
  | [] => fun st => decidable_of_iff (g ∈ st.guards) ⟨fun mem n => by rwa [List.take_nil], (· 0)⟩
  | _ :: later => fun _ =>
    have := decidableKeeps α g later
    decidable_of_iff _ keeps_cons.symm

/-! ## One call -/

namespace Does

variable {w : Option Guard}

/-- A buffer that the store knows stays known, and one that has ended does not come back. -/
theorem alive (does : st.Does st' w) (known : (st.store.entry? id).isSome) :
    (st'.store.entry? id).isSome ∧ (0 < st'.store.handles id → 0 < st.store.handles id) := by
  cases w with
  | none => exact ⟨does.known known, does.alive known⟩
  | some g =>
    obtain ⟨-, -, -, bytes, written, -⟩ := does
    have count := st.store.handles_modify g.buffer.id id
      (f := ({ · with pixels := bytes })) fun _ => rfl
    rw [written]
    refine ⟨?_, fun after => count ▸ after⟩
    rw [Store.entry?_withPixels]
    split <;> simpa using known

/-- Nothing at all happens to the buffers that are not written. -/
theorem entry? (does : st.Does st' (some g)) (apart : id ≠ g.buffer.id) :
    st'.store.entry? id = st.store.entry? id := by
  obtain ⟨-, -, -, bytes, written, -⟩ := does
  rw [written, Store.entry?_withPixels, if_neg apart]

theorem pixels (does : st.Does st' w) (apart : ∀ g ∈ w, g.buffer.id ≠ id)
    (before : 0 < st.store.handles id) (after : 0 < st'.store.handles id) :
    st'.store.pixels id = st.store.pixels id := by
  cases w with
  | none => exact Store.Ages.pixels does before after
  | some g => simp only [Store.pixels, does.entry? (apart g rfl).symm]

end Does

/-! ## Many calls -/

namespace Sound

theorem alive_of_guard (sound : st.Sound) (mem : g ∈ st.guards) :
    0 < st.store.handles g.buffer.id :=
  sound.client.alive (List.mem_append_right _ (List.mem_map_of_mem mem))

theorem alive_before [LawfulScalar α] (sound : st.Sound) {later : List StudioCall}
    (known : (st.store.entry? id).isSome) (after : 0 < (st.runs α later).store.handles id) :
    0 < st.store.handles id := by
  induction later generalizing st with
  | nil => exact after
  | cons call later ih =>
    obtain ⟨next, does⟩ := sound.step (α := α) call
    obtain ⟨known', back⟩ := does.alive known
    exact back (ih next known' after)

/-- The bytes stay while nobody writes them and the buffer is alive. -/
theorem pixels_runs [LawfulScalar α] (sound : st.Sound) {later : List StudioCall}
    (untouched : st.Untouched α id later) (before : 0 < st.store.handles id)
    (after : 0 < (st.runs α later).store.handles id) :
    (st.runs α later).store.pixels id = st.store.pixels id := by
  induction later generalizing st with
  | nil => rfl
  | cons call later ih =>
    obtain ⟨first, rest⟩ := untouched_cons.1 untouched
    obtain ⟨next, does⟩ := sound.step (α := α) call
    obtain ⟨e, found, -⟩ := Store.entry?_isSome_of_handles before
    have known := (does.alive (Option.isSome_iff_exists.2 ⟨e, found⟩)).1
    have between : 0 < (st.step α call).store.handles id := next.alive_before known after
    exact (ih next rest between after).trans (does.pixels first before between)

/-- While a guard is alive that may not write, nobody writes into its buffer. -/
theorem untouched_of_keeps [LawfulScalar α] (sound : st.Sound) {later : List StudioCall}
    (reads : g.flags.write = false) (keeps : st.Keeps α g later) :
    st.Untouched α g.buffer.id later := by
  intro n call found writer writes same
  have then_ : (st.runs α (later.take n)).Sound := sound.runs _
  have does := (then_.step (α := α) call).2
  rw [Option.mem_def.1 writes] at does
  obtain ⟨mem, -, may, -⟩ := does
  -- The writer would be the only guard of the buffer.
  have alone := (then_.client.locked.writer mem may).2 g (keeps n) same.symm
  rw [alone, may] at reads
  cases reads

end Sound

/-- Whatever a program calls, the bytes of a buffer that stays alive change only by a call that
writes through a guard of this buffer that is alive and may write. So what is read through a guard
that may not write stays the same as long as the guard is alive. What is written is what is read
next; and as long as no other call writes into the buffer, any guard of it reads what the last one
left, also when the guard of the writer has ended. A call that writes into one buffer leaves all
others as they were, and a buffer that can be mapped always has the bytes of all its pixels. -/
theorem guards_give_stable_reads (α : Type) [Scalar α] [LawfulScalar α] (clock : Clock)
    (calls : List StudioCall) :
    let st := (start clock).runs α calls
    (∀ call id, 0 < st.store.handles id → 0 < (st.step α call).store.handles id →
      (st.step α call).store.pixels id ≠ st.store.pixels id →
        ∃ g, st.writes call = some g ∧ g ∈ st.guards ∧ g ∈ (st.step α call).guards ∧
          g.flags.write = true ∧ g.buffer.id = id) ∧
    (∀ g later, g.flags.write = false → st.Keeps α g later →
      (st.runs α later).store.read g = st.store.read g) ∧
    (∀ g edit, st.writes (.write g edit) = some g →
      (st.step α (.write g edit)).store.read g = edit.apply (st.store.read g)) ∧
    (∀ call g later r, st.writes call = some g →
      (st.step α call).Untouched α g.buffer.id later →
      r ∈ ((st.step α call).runs α later).guards → r.buffer.id = g.buffer.id →
        ((st.step α call).runs α later).store.read r = (st.step α call).store.read g) ∧
    (∀ call g id, st.writes call = some g → id ≠ g.buffer.id →
      (st.step α call).store.entry? id = st.store.entry? id) ∧
    ∀ id b, st.store.buffer? id = some b → b.mappable = true → 0 < st.store.handles id →
      (st.store.pixels id).size = b.width.toNat * b.height.toNat * 4 := by
  intro st
  have sound : st.Sound := (sound_start clock).runs calls
  refine ⟨fun call id before after changed => ?changes, fun g later reads keeps => ?reads,
    fun g edit writes => ?written, fun call g later r writes untouched mem same => ?last,
    fun call g id writes apart => ?others, fun id b known mappable alive => ?size⟩
  case changes =>
    have does := (sound.step (α := α) call).2
    cases writes : st.writes call with
    | none => exact absurd (does.pixels (by simp [writes]) before after) changed
    | some g =>
      rw [writes] at does
      have here : g.buffer.id = id := by
        by_contra apart
        exact changed (does.pixels (by simpa using apart) before after)
      obtain ⟨mem, still, may, -⟩ := does
      exact ⟨g, rfl, mem, still, may, here⟩
  case reads =>
    have untouched := sound.untouched_of_keeps reads keeps
    exact sound.pixels_runs untouched (sound.alive_of_guard (keeps 0))
      ((sound.runs later).alive_of_guard keeps.last)
  case written =>
    simp only [Studio.writes, Option.ite_none_right_eq_some, and_true] at writes
    obtain ⟨mem, free, may⟩ := writes
    obtain ⟨e, found, -⟩ := Store.entry?_isSome_of_handles (sound.alive_of_guard mem)
    rw [write_eq ⟨mem, free⟩ may]
    exact Store.pixels_withPixels found _
  case last =>
    obtain ⟨next, does⟩ := sound.step (α := α) call
    rw [writes] at does
    obtain ⟨-, still, -⟩ := does
    have after := (next.runs later).alive_of_guard mem
    rw [Store.read, Store.read, same]
    exact next.pixels_runs untouched (next.alive_of_guard still) (same ▸ after)
  case others =>
    have does := (sound.step (α := α) call).2
    rw [writes] at does
    exact does.entry? apart
  case size =>
    obtain ⟨e, found, rfl⟩ := Option.map_eq_some_iff.1 known
    rw [Store.handles_eq found] at alive
    simp only [Store.pixels, found, Option.map_some, Option.getD_some]
    exact (sound.client.whole id e found).size alive mappable

/-- Sevens are written into one of three buffers, which is then read by another guard and drawn onto
the last one, whose pass does not read its own destination; a reader of the first buffer sees
nothing of it. -/
theorem reader_sees_sevens :
    let b (i : Nat) : Buffer := ⟨⟨i⟩, 1, 1, .argb8888, true⟩
    let create : StudioCall := .buffer (.create 1 1 .argb8888)
    let sevens : StudioCall := .write ⟨b 1, .readWrite⟩
      ⟨fun bytes => Array.replicate bytes.size 7, fun _ => Array.size_replicate⟩
    let st := (start default).runs Rat [create, create, create,
      .buffer (.openAccess (b 0) .readOnly), .buffer (.openAccess (b 1) .readWrite)]
    let later : List StudioCall := [.buffer (.closeAccess ⟨b 1, .readWrite⟩),
      .buffer (.openAccess (b 1) .readOnly), .startPass {} (b 2),
      .stroke 0 (.texture { texture := .stored (b 1) }),
      .stroke 0 (.texture { texture := .stored (b 2) }), .finishPass 0]
    (∃ g, st.writes sevens = some g ∧ g ∈ st.guards ∧ g ∈ (st.step Rat sevens).guards ∧
      g.flags.write = true ∧ g.buffer.id = ⟨1⟩) ∧
    (st.runs Rat (sevens :: later)).store.read ⟨b 0, .readOnly⟩ =
      st.store.read ⟨b 0, .readOnly⟩ ∧
    ((st.step Rat sevens).runs Rat later).store.read ⟨b 1, .readOnly⟩ = #[7, 7, 7, 7] ∧
    (st.step Rat sevens).store.entry? ⟨0⟩ = st.store.entry? ⟨0⟩ ∧
    (st.store.pixels ⟨2⟩).size = 1 * 1 * 4 := by
  intro b create sevens st later
  have stable := guards_give_stable_reads Rat default [create, create, create,
    .buffer (.openAccess (b 0) .readOnly), .buffer (.openAccess (b 1) .readWrite)]
  -- The state is named, so that nobody computes it to compare two terms.
  have named : (start default).runs Rat [create, create, create,
    .buffer (.openAccess (b 0) .readOnly), .buffer (.openAccess (b 1) .readWrite)] = st := rfl
  simp only [named] at stable
  obtain ⟨changes, reads, written, last, others, size⟩ := stable
  have writes : st.writes sevens = some ⟨b 1, .readWrite⟩ := by decide +kernel
  have filled : (st.step Rat sevens).store.read ⟨b 1, .readWrite⟩ = #[7, 7, 7, 7] := by
    refine (written _ _ writes).trans ?_
    decide +kernel
  refine ⟨changes sevens ⟨1⟩ ?_ ?_ ?_, reads ⟨b 0, .readOnly⟩ (sevens :: later) rfl ?_,
    (last sevens ⟨b 1, .readWrite⟩ later ⟨b 1, .readOnly⟩ writes ?_ ?_ rfl).trans filled,
    others sevens _ ⟨0⟩ writes ?_, size ⟨2⟩ (b 2) ?_ rfl ?_⟩
  all_goals decide +kernel

end Studio

end Compositor
