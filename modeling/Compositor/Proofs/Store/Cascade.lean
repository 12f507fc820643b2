import Compositor.Proofs.Store.Operations
import Mathlib.Logic.Function.Iterate

/-!
# How a cascade runs

What comes of a task is finished before the next task begins, so giving up a list of handles is
giving up one after the other. Giving up the last handle of a buffer retires it and then tells its
listeners in their order; what a listener holds is given up, with everything that comes of it,
before the next listener is told. One task at a time, a cascade reaches its end after as many steps
as there are tasks, listeners and handles to give up.
-/

namespace Compositor.Store

/-- Tell a listener of the end of a buffer, and give up what the listener holds. -/
def tell (id : BufferId) (s : Store) (listener : Listener) : Store :=
  listener.held.foldl release { s with notices := s.notices ++ [⟨listener.tag, id⟩] }

/-- A buffer without handles has no bytes, and nobody waits for its end. -/
def retire (s : Store) (id : BufferId) : Store :=
  s.modify id fun e => { e with handles := 0, pixels := #[], listeners := [] }

theorem settle_append (s : Store) (tasks rest : List Task) :
    s.settle (tasks ++ rest) = (s.settle tasks).settle rest := by
  fun_induction settle s tasks with
  | case1 s => rfl
  | case2 s task tasks ih => rw [List.cons_append, settle, ← List.append_assoc, ih]

theorem settle_cons (s : Store) (task : Task) (rest : List Task) :
    s.settle (task :: rest) = ((s.perform task).1.settle (s.perform task).2).settle rest := by
  rw [settle, settle_append]

theorem settle_drops (s : Store) (ids : List BufferId) :
    s.settle (ids.map .dropBuffer) = ids.foldl release s := by
  induction ids generalizing s with
  | nil => rw [List.map_nil, settle, List.foldl_nil]
  | cons id ids ih =>
    rw [List.map_cons, ← List.singleton_append, settle_append, ih, List.foldl_cons]
    rfl

theorem settle_tells (s : Store) (id : BufferId) (listeners : List Listener) :
    s.settle (listeners.map (.tell · id)) = listeners.foldl (tell id) s := by
  induction listeners generalizing s with
  | nil => rw [List.map_nil, settle, List.foldl_nil]
  | cons listener listeners ih =>
    rw [List.map_cons, settle_cons, ih, List.foldl_cons]
    simp only [perform, settle_drops, tell]

/-- Someone else still holds the buffer, or nobody does. -/
theorem dropBuffer_shared {s : Store} {id : BufferId} {e : Entry} (found : s.entry? id = some e)
    (shared : e.handles ≠ 1) :
    s.dropBuffer id = (s.modify id ({ · with handles := e.handles - 1 }), []) := by
  have dropped : dropEntry e = ({ e with handles := e.handles - 1 }, []) := by
    obtain ⟨buffer, handles, lock, pixels, listeners⟩ := e
    match handles with
    | 0 | n + 2 => rfl
    | 1 => exact absurd rfl shared
  have found' : s.entries[id.index]? = some e := found
  rw [modify_eq_set found]
  simp only [Store.dropBuffer, found', dropped]

/-- The last handle goes: the buffer is retired, and its listeners are due. -/
theorem dropBuffer_last {s : Store} {id : BufferId} {e : Entry} (found : s.entry? id = some e)
    (last : e.handles = 1) :
    s.dropBuffer id = (s.retire id, e.listeners.map (.tell · e.buffer.id)) := by
  have dropped : dropEntry e = ({ e with handles := 0, pixels := #[], listeners := [] },
      e.listeners.map (.tell · e.buffer.id)) := by
    rw [dropEntry, last]
  have found' : s.entries[id.index]? = some e := found
  rw [retire, modify_eq_set found]
  simp only [Store.dropBuffer, found', dropped]

theorem release_shared {s : Store} {id : BufferId} {e : Entry} (found : s.entry? id = some e)
    (shared : e.handles ≠ 1) :
    s.release id = s.modify id ({ · with handles := e.handles - 1 }) := by
  rw [release, settle_cons, perform, dropBuffer_shared found shared, settle, settle]

/-- A handle that is taken of a live buffer and given up again leaves the store as it was. -/
theorem release_retain {s : Store} {id : BufferId} (alive : 0 < s.handles id) :
    (s.retain id).release id = s := by
  obtain ⟨e, found, number⟩ := entry?_isSome_of_handles alive
  have retained : Store.entry? (s.retain id) id = some { e with handles := e.handles + 1 } := by
    rw [retain, entry?_modify, if_pos rfl, found]
    rfl
  rw [release_shared retained (by simp only; omega)]
  refine ext_entry? (fun other => ?_) rfl rfl
  rw [entry?_modify, retain, entry?_modify]
  split
  · rename_i same
    rw [same, found]
    rfl
  · rfl

/-- The last handle: the buffer is retired, and then its listeners are told, one after the other. -/
theorem release_last {s : Store} {id : BufferId} {e : Entry} (found : s.entry? id = some e)
    (last : e.handles = 1) : s.release id = e.listeners.foldl (tell e.buffer.id) (s.retire id) := by
  rw [release, settle_cons, perform, dropBuffer_last found last, settle_tells, settle]

/-! ## One task at a time -/

/-- Do the first task of a cascade; what comes of it is done next. -/
def advance : Store × List Task → Store × List Task
  | (s, []) => (s, [])
  | (s, task :: rest) => ((s.perform task).1, (s.perform task).2 ++ rest)

/-- Every cascade ends. -/
theorem advance_settles (s : Store) (tasks : List Task) :
    ∃ n ≤ s.weight + tasksWeight tasks, advance^[n] (s, tasks) = (s.settle tasks, []) := by
  fun_induction settle s tasks with
  | case1 s => exact ⟨0, Nat.zero_le _, rfl⟩
  | case2 s task rest ih =>
    obtain ⟨n, bound, ends⟩ := ih
    refine ⟨n + 1, ?_, ends⟩
    have step := s.perform_weight task
    simp only [tasksWeight, total_append, total] at bound step ⊢
    omega

/-- What is left of a cascade comes to the same store as the whole. -/
theorem settle_advance (s : Store) (tasks : List Task) (n : Nat) :
    (advance^[n] (s, tasks)).1.settle (advance^[n] (s, tasks)).2 = s.settle tasks := by
  refine Function.Iterate.rec (fun r : Store × List Task => r.1.settle r.2 = s.settle tasks)
    rfl ?_ n
  rintro ⟨s', _ | ⟨task, rest⟩⟩ same
  · exact same
  · rw [advance, ← same, settle]

/-! ## The number of buffers -/

@[simp] theorem length_modify (s : Store) (id : BufferId) (f : Entry → Entry) :
    (s.modify id f).entries.length = s.entries.length :=
  List.length_modify ..

@[simp] theorem length_retain_all (s : Store) (ids : List BufferId) :
    (ids.foldl retain s).entries.length = s.entries.length := by
  induction ids generalizing s with
  | nil => rfl
  | cons id ids ih => rw [List.foldl_cons, ih, retain, length_modify]

@[simp] theorem length_perform (s : Store) (task : Task) :
    (s.perform task).1.entries.length = s.entries.length := by
  cases task with
  | dropBuffer id =>
    rw [perform, Store.dropBuffer]
    split
    · rfl
    · exact List.length_set
  | dropLayers id => rw [perform, (s.layers_dropLayers id).2]
  | tell listener id => rfl

@[simp] theorem length_settle (s : Store) (tasks : List Task) :
    (s.settle tasks).entries.length = s.entries.length := by
  fun_induction settle s tasks with
  | case1 s => rfl
  | case2 s task rest ih => rw [ih, length_perform]

/-! ## What a buffer is, and its lock -/

def buffer? (s : Store) (id : BufferId) : Option Buffer := (s.entry? id).map (·.buffer)

/-- No cascade changes these. -/
def fixed? (s : Store) (id : BufferId) : Option (Buffer × Lock) :=
  (s.entry? id).map fun e => (e.buffer, e.lock)

variable {s s' : Store} {id other : BufferId}

theorem lock_eq_of_fixed? (h : s'.fixed? id = s.fixed? id) : s'.lock id = s.lock id := by
  have locks (s : Store) : s.lock id = ((s.fixed? id).map (·.2)).getD .idle := by
    rw [lock, fixed?, Option.map_map]
    rfl
  rw [locks, locks, h]

theorem buffer?_eq_of_fixed? (h : s'.fixed? id = s.fixed? id) : s'.buffer? id = s.buffer? id := by
  have buffers (s : Store) : s.buffer? id = (s.fixed? id).map (·.1) := by
    rw [buffer?, fixed?, Option.map_map]
    rfl
  rw [buffers, buffers, h]

theorem buffer?_modify (s : Store) (id other : BufferId) {f : Entry → Entry}
    (same : ∀ e, (f e).buffer = e.buffer) : (s.modify id f).buffer? other = s.buffer? other := by
  simp only [buffer?, entry?_modify]
  split
  · cases s.entry? other <;> simp [same]
  · rfl

theorem fixed?_modify (s : Store) (id other : BufferId) {f : Entry → Entry}
    (same : ∀ e, (f e).buffer = e.buffer ∧ (f e).lock = e.lock) :
    (s.modify id f).fixed? other = s.fixed? other := by
  simp only [fixed?, entry?_modify]
  split
  · cases s.entry? other <;> simp [same]
  · rfl

theorem dropEntry_fixed (e : Entry) :
    (dropEntry e).1.buffer = e.buffer ∧ (dropEntry e).1.lock = e.lock := by
  unfold dropEntry
  split <;> exact ⟨rfl, rfl⟩

theorem fixed?_perform (s : Store) (task : Task) (other : BufferId) :
    (s.perform task).1.fixed? other = s.fixed? other := by
  cases task with
  | dropBuffer id =>
    simp only [perform, Store.dropBuffer]
    cases found : s.entries[id.index]? with
    | none => rfl
    | some e =>
      by_cases same : id.index = other.index
      · have bound := (List.getElem?_eq_some_iff.1 found).1
        simp only [fixed?, entry?, ← same, List.getElem?_set_self bound, found, Option.map_some,
          dropEntry_fixed]
      · simp [fixed?, entry?, List.getElem?_set_ne same]
  | dropLayers id => simp only [fixed?, entry?, perform, (s.layers_dropLayers id).2]
  | tell listener id => rfl

theorem fixed?_retain (s : Store) (id other : BufferId) :
    (s.retain id).fixed? other = s.fixed? other :=
  s.fixed?_modify id other fun _ => ⟨rfl, rfl⟩

theorem fixed?_retain_all (s : Store) (ids : List BufferId) (other : BufferId) :
    (ids.foldl retain s).fixed? other = s.fixed? other := by
  induction ids generalizing s with
  | nil => rfl
  | cons id ids ih => exact (ih _).trans (s.fixed?_retain id other)

theorem fixed?_listen (s : Store) (id : BufferId) (listener : Listener) (other : BufferId) :
    (s.listen id listener).fixed? other = s.fixed? other := by
  have added : (s.listen id listener).fixed? other =
      (listener.held.foldl retain s).fixed? other :=
    fixed?_modify _ id other fun _ => ⟨rfl, rfl⟩
  exact added.trans (s.fixed?_retain_all listener.held other)

theorem fixed?_settle (s : Store) (tasks : List Task) (other : BufferId) :
    (s.settle tasks).fixed? other = s.fixed? other := by
  fun_induction settle s tasks with
  | case1 s => rfl
  | case2 s task rest ih => exact ih.trans (s.fixed?_perform task other)

theorem fixed?_acquire (s : Store) (h : Holding) (other : BufferId) :
    (s.acquire h).fixed? other = s.fixed? other := by
  have layers (s : Store) (sets : List LayerSetId) :
      (sets.foldl retainLayers s).fixed? other = s.fixed? other := by
    induction sets generalizing s with
    | nil => rfl
    | cons set sets ih => exact ih _
  exact (layers _ h.layers).trans (s.fixed?_retain_all h.buffers other)

theorem fixed?_exchange (s : Store) (old new : Holding) (other : BufferId) :
    (s.exchange old new).fixed? other = s.fixed? other :=
  (fixed?_settle _ _ other).trans (s.fixed?_acquire new other)

/-- Stores that know the same buffers have as many. -/
theorem length_eq_of_buffer? (same : ∀ id, s'.buffer? id = s.buffer? id) :
    s'.entries.length = s.entries.length := by
  have known (s : Store) (i : Nat) : (s.buffer? ⟨i⟩).isSome ↔ i < s.entries.length := by
    simp [buffer?, entry?]
  have less := known s' s.entries.length
  have more := known s s'.entries.length
  rw [same] at less
  rw [← same] at more
  grind

/-- The lock of a new buffer is free, as that of a buffer that is not there. -/
theorem lock_insert (s : Store) (width height : UInt32) (format : PixelFormat) (mappable : Bool)
    (pixels : Array UInt8) (other : BufferId) :
    (s.insert width height format mappable pixels).2.lock other = s.lock other := by
  by_cases new : other = ⟨s.entries.length⟩
  · subst new
    simp [lock, insert, entry?]
  · simp only [lock, entry?_insert_of_ne new]

theorem lock_modify (s : Store) (id other : BufferId) (f : Entry → Entry) :
    (s.modify id f).lock other =
      if other = id then ((s.entry? id).map fun e => (f e).lock).getD .idle else s.lock other := by
  simp only [lock, entry?_modify]
  split
  · rename_i same
    rw [same, Option.map_map]
    rfl
  · rfl

end Compositor.Store
