import Compositor.Proofs.Store.Client
import Compositor.Proofs.Store.Listening

/-!
# Every listener is told once

A buffer ends when its last handle is given up, and then stays as it is. Its listeners are told
once each, in the order in which they were added, and not before that; what a listener holds is
given up before the next one is told. This holds at every moment, also in the middle of a cascade.
-/

namespace Compositor

namespace Client

variable {c c' : Client} {tasks : List Task}

/-- The tags of the listeners that were added to a buffer, the oldest first. -/
def addedTo (c : Client) (id : BufferId) : List Nat :=
  (c.added.filter (·.1 = id)).map (·.2.tag)

theorem Moves.accounted (balanced : c.store.Balanced c.holding) (moves : c.Moves c' tasks)
    (accounted : c.store.Accounted [] c.addedTo) : c'.store.Accounted tasks c'.addedTo := by
  cases moves with
  | idle weak known => exact accounted
  | made b store inserted =>
    obtain ⟨rfl, rfl⟩ := Prod.mk.inj inserted
    exact accounted.insert _ _ _ _ _
  | copied b alive => exact accounted.retain alive
  | dropped b mem => exact { accounted with }
  | opened b flags store mem opened =>
    obtain ⟨-, lock, -, rfl⟩ := Store.openAccess_ok opened
    have alive : 0 < c.store.handles b.id := Store.handles_pos balanced mem
    refine accounted.modify fun e found => ⟨rfl, rfl, ?_⟩
    rw [Store.handles_eq found] at alive
    exact ⟨fun _ => alive, fun _ => Nat.succ_pos _⟩
  | closed g mem =>
    have unlocked : (c.store.modify g.buffer.id fun e => { e with lock := e.lock.release }
        ).Accounted [] c.addedTo := accounted.modify fun _ _ => ⟨rfl, rfl, Iff.rfl⟩
    exact { unlocked with }
  | listened b listener mem held =>
    have added (id : BufferId) : addedTo { c with added := c.added ++ [(b.id, listener)] } id =
        c.addedTo id ++ if id = b.id then [listener.tag] else [] := by
      by_cases same : id = b.id
      · simp [addedTo, same]
      · simp [addedTo, same, Ne.symm same]
    have listening : (c.store.listen b.id listener).Accounted _ _ :=
      accounted.listen (Store.handles_pos balanced mem)
        fun other listed => Store.handles_pos balanced (held other listed)
    exact funext added ▸ listening

theorem kept_accounted : Kept fun c tasks => c.store.Accounted tasks c.addedTo where
  opening balanced moves accounted := moves.accounted balanced accounted
  perform accounted := accounted.perform

/-- No buffer is ever forgotten. -/
theorem Moves.length_le (moves : c.Moves c' tasks) :
    c.store.entries.length ≤ c'.store.entries.length := by
  cases moves with
  | made b store inserted =>
    obtain ⟨rfl, rfl⟩ := Prod.mk.inj inserted
    simp
  | opened b flags store mem opened =>
    obtain ⟨-, lock, -, rfl⟩ := Store.openAccess_ok opened
    simp
  | idle | copied | dropped | closed | listened => simp [Store.retain, Store.listen]

theorem kept_weak : Kept fun c _ => ∀ b ∈ c.weak, b.id.index < c.store.entries.length where
  opening balanced moves known b mem := by
    have grows := moves.length_le
    cases moves with
    | idle weak owned =>
      rcases owned b mem with old | new
      · exact known b old
      · obtain ⟨e, found⟩ := Store.exists_entry balanced new
        exact (List.getElem?_eq_some_iff.1 found).1
    | made | copied | dropped | opened | closed | listened =>
      exact Nat.lt_of_lt_of_le (known b mem) grows
  perform known b mem := by
    rw [Store.length_perform]
    exact known b mem

theorem kept_noLayers : Kept fun c _ => c.store.layerSets = [] where
  opening balanced moves none := by
    cases moves with
    | made b store inserted =>
      obtain ⟨rfl, rfl⟩ := Prod.mk.inj inserted
      exact none
    | opened b flags store mem opened =>
      obtain ⟨-, lock, -, rfl⟩ := Store.openAccess_ok opened
      exact none
    | listened b listener mem held => exact (Store.layerSets_retain_all ..).trans none
    | idle | copied | dropped | closed => exact none
  perform {c task rest} none := by
    cases task with
    | dropBuffer id => exact (c.store.layers_dropBuffer id).2.trans none
    | dropLayers id => simp [Store.perform, Store.dropLayers, none]
    | tell listener id => exact none

/-! ## What has ended -/

/-- What a call does before anything is given up leaves the entry of every other buffer alone. -/
theorem Moves.entry?_of_ended (balanced : c.store.Balanced c.holding) (moves : c.Moves c' tasks)
    {id : BufferId} {e : Entry} (found : c.store.entry? id = some e) (ended : e.handles = 0) :
    c'.store.entry? id = some e := by
  have apart {other : BufferId} (alive : 0 < c.store.handles other) : id ≠ other := by
    rintro rfl
    rw [Store.handles_eq found] at alive
    omega
  have modified {other : BufferId} {f : Entry → Entry} (alive : 0 < c.store.handles other) :
      Store.entry? (c.store.modify other f) id = some e := by
    rw [Store.entry?_modify, if_neg (apart alive), found]
  cases moves with
  | idle weak known => exact found
  | made b store inserted =>
    obtain ⟨rfl, rfl⟩ := Prod.mk.inj inserted
    refine (Store.entry?_insert_of_ne ?_).trans found
    rintro rfl
    rw [Store.entry?, List.getElem?_eq_none (Nat.le_refl _)] at found
    cases found
  | copied b alive => exact modified alive
  | dropped b mem => exact found
  | opened b flags store mem opened =>
    obtain ⟨-, lock, -, rfl⟩ := Store.openAccess_ok opened
    exact modified (Store.handles_pos balanced mem)
  | closed g mem =>
    have owned : g.buffer.id ∈ c.held := List.mem_append_right _ (List.mem_map_of_mem mem)
    exact modified (Store.handles_pos balanced owned)
  | listened b listener mem held =>
    have untouched : id ∉ listener.held := fun listed =>
      apart (Store.handles_pos balanced (held id listed)) rfl
    change Store.entry? (Store.modify _ b.id _) id = _
    rw [Store.entry?_modify, if_neg (apart (Store.handles_pos balanced mem)),
      Store.entry?_retain_all_of_notMem untouched, found]

/-- A buffer that ended stays as it is. -/
theorem kept_ended {id : BufferId} {e : Entry} (ended : e.handles = 0) :
    Kept fun c _ => c.store.entry? id = some e where
  opening balanced moves found := moves.entry?_of_ended balanced found ended
  perform found := Store.entry?_perform_of_ended found ended _

/-! ## At every moment -/

section

/-- Each handle is one of the program, of a guard, of a waiting listener or of what is given up. -/
theorem handles_of_holds {m : Client × List Task}
    (holds : Holds (fun c _ => c.store.layerSets = []) m) (id : BufferId) :
    m.1.store.handles id =
      (m.1.handles.map (·.id)).count id + (m.1.guards.map (·.buffer.id)).count id +
        (m.1.store.entries.flatMap Entry.held).count id +
        (Task.holdings m.2).buffers.count id := by
  obtain ⟨balanced, noLayers⟩ := holds
  have count := balanced.handles id
  simp only [Store.inner, noLayers, Holding.buffers_append, holding, held, List.count_append,
    List.flatMap_nil, List.count_nil] at count
  omega

variable (calls : List BufferCall) (call : BufferCall) (n : Nat)

theorem handles_moment (id : BufferId) :
    (moment calls call n).1.store.handles id =
      ((moment calls call n).1.handles.map (·.id)).count id +
        ((moment calls call n).1.guards.map (·.buffer.id)).count id +
        ((moment calls call n).1.store.entries.flatMap Entry.held).count id +
        (Task.holdings (moment calls call n).2).buffers.count id :=
  handles_of_holds (kept_noLayers.holds_moment rfl calls call n) id

theorem moment_of_ended {id : BufferId} {e : Entry}
    (found : (moment calls call n).1.store.entry? id = some e) (ended : e.handles = 0) :
    (∀ k, (moment calls call (n + k)).1.store.entry? id = some e) ∧
      ∀ more next k, (moment (calls ++ call :: more) next k).1.store.entry? id = some e := by
  have kept : Kept fun c _ => c.store.entry? id = some e := kept_ended ended
  have here := (kept_accounted.holds_moment Store.accounted_empty calls call n).1
  have later (k : Nat) := after_add _ n k ▸ kept.holds_after ⟨here, found⟩ k
  refine ⟨fun k => (later k).2, fun more next k => ?_⟩
  obtain ⟨k', -, ends⟩ := moment_ends calls call n
  have done := later k'
  rw [← moment, ends] at done
  have whole : run (calls ++ call :: more) = more.foldl step (run (calls ++ [call])) := by
    rw [run, run, ← List.foldl_append, List.append_assoc]
    rfl
  rw [moment, whole]
  exact (kept.holds_after (kept.holds_opening (kept.holds_foldl done more) next) k).2

theorem told_moment (id : BufferId) :
    (moment calls call n).1.store.told id ++ Task.due id (moment calls call n).2 =
      if (moment calls call n).1.store.isAlive id then []
      else (moment calls call n).1.addedTo id := by
  have accounted := (kept_accounted.holds_moment Store.accounted_empty calls call n).2
  split
  · rename_i alive
    obtain ⟨quiet, none⟩ := accounted.alive id (of_decide_eq_true alive)
    rw [quiet, none]
    rfl
  · rename_i dead
    have none : (moment calls call n).1.store.handles id = 0 := by
      simpa [Store.isAlive] using dead
    rw [← accounted.listeners id, accounted.ended id none, List.append_nil]

theorem upgrade_moment {b : Buffer} (mem : b ∈ (moment calls call n).1.weak) :
    (moment calls call n).1.store.retain? b.id = none ↔
      ∃ e, (moment calls call n).1.store.entry? b.id = some e ∧ e.handles = 0 := by
  have made := (kept_weak.holds_moment (by simp [start]) calls call n).2 b mem
  have found := List.getElem?_eq_getElem made
  rw [Store.retain?, Store.isAlive, Store.handles_eq found]
  constructor
  · intro refused
    refine ⟨_, found, ?_⟩
    simpa using refused
  · rintro ⟨e, found', ended⟩
    cases found.symm.trans found'
    simp [ended]

theorem release_moment {id : BufferId} {e : Entry}
    (found : (moment calls call n).1.store.entry? id = some e) :
    (moment calls call n).1.store.release id =
      if e.handles = 1 then
        e.listeners.foldl (Store.tell id) ((moment calls call n).1.store.retire id)
      else (moment calls call n).1.store.modify id ({ · with handles := e.handles - 1 }) := by
  have accounted := (kept_accounted.holds_moment Store.accounted_empty calls call n).2
  have number : e.buffer.id = id :=
    accounted.numbered id e.buffer (by rw [Store.buffer?, found]; rfl)
  split
  · rename_i last
    rw [Store.release_last found last, number]
  · rename_i shared
    exact Store.release_shared found shared

end

/-- Buffers end exactly once. At every moment, the handles of a buffer are those of the program, of
its guards, of the waiting listeners and of what is being given up. A buffer without handles stays
as it is from then on. Its listeners, and no others, have been told or are due, in the order in
which they were added; and whoever gives up the last handle has each of them told, and what it held
given up, before the next. A handle that keeps nothing alive leads to one that does as long as the
buffer has not ended, and every cascade is over after a number of tasks that is known before. -/
theorem ends_exactly_once (calls : List BufferCall) (call : BufferCall) (n : Nat) :
    let c := (moment calls call n).1
    let tasks := (moment calls call n).2
    (∀ id, c.store.handles id =
      (c.handles.map (·.id)).count id + (c.guards.map (·.buffer.id)).count id +
        (c.store.entries.flatMap Entry.held).count id + (Task.holdings tasks).buffers.count id) ∧
    (∀ id e, c.store.entry? id = some e → e.handles = 0 →
      (∀ k, (moment calls call (n + k)).1.store.entry? id = some e) ∧
      ∀ more next k, (moment (calls ++ call :: more) next k).1.store.entry? id = some e) ∧
    (∀ id, c.store.told id ++ Task.due id tasks =
      if c.store.isAlive id then [] else c.addedTo id) ∧
    (∀ id e, c.store.entry? id = some e → c.store.release id =
      if e.handles = 1 then e.listeners.foldl (Store.tell id) (c.store.retire id)
      else c.store.modify id ({ · with handles := e.handles - 1 })) ∧
    (∀ b ∈ c.weak, c.store.retain? b.id = none ↔
      ∃ e, c.store.entry? b.id = some e ∧ e.handles = 0) ∧
    run (calls ++ [call]) = { c with store := c.store.settle tasks } ∧
    ∃ k ≤ c.store.weight + Store.tasksWeight tasks,
      moment calls call (n + k) = (run (calls ++ [call]), []) := by
  intro c tasks
  exact ⟨handles_moment calls call n, fun _ _ => moment_of_ended calls call n,
    told_moment calls call n, fun _ _ => release_moment calls call n,
    fun _ => upgrade_moment calls call n, run_eq_settle_moment calls call n,
    moment_ends calls call n⟩

/-- The second buffer ends between the two listeners of the first, which held it. -/
theorem ends_between_listeners :
    let a : Buffer := ⟨⟨0⟩, 1, 1, .argb8888, true⟩
    let b : Buffer := ⟨⟨1⟩, 1, 1, .argb8888, true⟩
    let calls := [.create 1 1 .argb8888, .create 1 1 .argb8888, .listen a ⟨1, [b.id]⟩,
      .listen a ⟨2, []⟩, .listen b ⟨3, []⟩, .downgrade b, .drop b]
    let c := (moment calls (.drop a) 4).1
    c.store.notices = [⟨1, a.id⟩, ⟨3, b.id⟩] ∧
      c.store.told a.id ++ Task.due a.id (moment calls (.drop a) 4).2 = [1, 2] ∧
      c.store.told b.id = [3] ∧ c.store.handles b.id = 0 ∧ c.store.retain? b.id = none ∧
      (∀ k, (moment calls (.drop a) (4 + k)).1.store.handles b.id = 0) ∧
      (run (calls ++ [.drop a])).store.notices = [⟨1, a.id⟩, ⟨3, b.id⟩, ⟨2, a.id⟩] := by
  intro a b calls c
  obtain ⟨count, stays, told, -, weak, -, -⟩ := ends_exactly_once calls (.drop a) 4
  obtain ⟨e, found⟩ : ∃ e, c.store.entry? b.id = some e :=
    Option.isSome_iff_exists.1 (by decide +kernel)
  have none : c.store.handles b.id = 0 := (count b.id).trans (by decide +kernel)
  have ended : e.handles = 0 := Store.handles_eq found ▸ none
  have refused := (weak b (by decide +kernel)).2 ⟨e, found, ended⟩
  exact ⟨by decide +kernel, (told a.id).trans (by decide +kernel), by decide +kernel, none, refused,
    fun k => (Store.handles_eq ((stays b.id e found ended).1 k)).trans ended, by decide +kernel⟩

end Client

end Compositor
