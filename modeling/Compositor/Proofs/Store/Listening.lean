import Compositor.Proofs.Store.Cascade

/-!
# Where listeners are

Every listener that was added is in one of three places: it was told, it is due in a cascade that
is not over, or it waits with its buffer. While a buffer has handles all its listeners wait; when
the last handle is gone none does.
-/

namespace Compositor

namespace Task

/-- The tags of the listeners that are still to be told of the end of a buffer. -/
def due (id : BufferId) (tasks : List Task) : List Nat :=
  tasks.flatMap fun
    | tell listener ended => if ended = id then [listener.tag] else []
    | dropBuffer _ | dropLayers _ => []

variable {id : BufferId} {tasks rest : List Task}

theorem due_append : due id (tasks ++ rest) = due id tasks ++ due id rest := List.flatMap_append

theorem due_drops (ids : List BufferId) : due id (ids.map .dropBuffer) = [] := by
  simp [due, List.flatMap_map]

theorem due_tells (listeners : List Listener) (ended : BufferId) :
    due id (listeners.map (.tell · ended)) =
      if ended = id then listeners.map (·.tag) else [] := by
  induction listeners with
  | nil => simp [due]
  | cons listener listeners ih =>
    rw [List.map_cons, ← List.singleton_append, due_append, ih]
    by_cases same : ended = id <;> simp [due, same]

end Task

namespace Store

/-- The tags of the listeners that were told of the end of a buffer. -/
def told (s : Store) (id : BufferId) : List Nat :=
  (s.notices.filter (·.buffer = id)).map (·.tag)

/-- The tags of the listeners that wait for the end of a buffer. -/
def waiting (s : Store) (id : BufferId) : List Nat :=
  ((s.entry? id).map fun e => e.listeners.map (·.tag)).getD []

theorem handles_eq {s : Store} {id : BufferId} {e : Entry} (found : s.entry? id = some e) :
    s.handles id = e.handles := by
  rw [handles, found]
  rfl

theorem handles_retain_le (s : Store) (id other : BufferId) :
    s.handles other ≤ (s.retain id).handles other := by
  rw [retain, handles, handles, entry?_modify]
  split
  · cases s.entry? other with
    | none => exact Nat.le_refl _
    | some e => exact Nat.le_succ _
  · exact Nat.le_refl _

theorem handles_retain_all_le (s : Store) (ids : List BufferId) (other : BufferId) :
    s.handles other ≤ (ids.foldl retain s).handles other := by
  induction ids generalizing s with
  | nil => exact Nat.le_refl _
  | cons id ids ih => exact Nat.le_trans (s.handles_retain_le id other) (ih _)

theorem layerSets_retain_all (s : Store) (ids : List BufferId) :
    (ids.foldl retain s).layerSets = s.layerSets := by
  induction ids generalizing s with
  | nil => rfl
  | cons id ids ih => exact ih _

theorem entry?_retain_all_of_notMem {s : Store} {ids : List BufferId} {other : BufferId}
    (notMem : other ∉ ids) : Store.entry? (ids.foldl retain s) other = s.entry? other := by
  induction ids generalizing s with
  | nil => rfl
  | cons id ids ih =>
    rw [List.foldl_cons, ih (fun later => notMem (List.mem_cons_of_mem _ later)), retain,
      entry?_modify, if_neg (List.ne_of_not_mem_cons notMem)]

/-- No cascade touches a buffer that has ended. -/
theorem entry?_perform_of_ended {s : Store} {id : BufferId} {e : Entry}
    (found : s.entry? id = some e) (ended : e.handles = 0) (task : Task) :
    Store.entry? (s.perform task).1 id = some e := by
  cases task with
  | dropBuffer other =>
    rw [perform]
    cases found' : s.entry? other with
    | none =>
      have missing : s.entries[other.index]? = none := found'
      rwa [Store.dropBuffer, missing]
    | some e' =>
      by_cases last : e'.handles = 1
      · have apart : id ≠ other := by
          rintro rfl
          cases found.symm.trans found'
          omega
        rw [dropBuffer_last found' last, retire, entry?_modify, if_neg apart, found]
      · rw [dropBuffer_shared found' last, entry?_modify]
        split
        · rename_i same
          subst same
          cases found.symm.trans found'
          obtain ⟨buffer, handles, lock, pixels, listeners⟩ := e
          cases ended
          rw [found]
          rfl
        · exact found
  | dropLayers other => rwa [perform, entry?, (s.layers_dropLayers other).2]
  | tell listener other => exact found

/-- Where the listeners that were added to each buffer are. -/
structure Accounted (s : Store) (tasks : List Task) (added : BufferId → List Nat) : Prop where
  numbered : ∀ id b, s.buffer? id = some b → b.id = id
  listeners : ∀ id, s.told id ++ Task.due id tasks ++ s.waiting id = added id
  alive : ∀ id, 0 < s.handles id → s.told id = [] ∧ Task.due id tasks = []
  ended : ∀ id, s.handles id = 0 → s.waiting id = []
  /-- Nobody listens to a buffer that is still to be made. -/
  fresh : ∀ id, s.buffer? id = none → added id = []

theorem accounted_empty : empty.Accounted [] fun _ => [] where
  numbered _ _ known := by cases known
  listeners _ := rfl
  alive _ _ := ⟨rfl, rfl⟩
  ended _ _ := rfl
  fresh _ _ := rfl

namespace Accounted

variable {s s' : Store} {tasks rest : List Task} {added : BufferId → List Nat} {id : BufferId}

theorem congr (accounted : s.Accounted tasks added) (notices : s'.notices = s.notices)
    (buffer : ∀ id, s'.buffer? id = s.buffer? id) (waiting : ∀ id, s'.waiting id = s.waiting id)
    (alive : ∀ id, 0 < s'.handles id ↔ 0 < s.handles id) : s'.Accounted tasks added := by
  have told (id : BufferId) : s'.told id = s.told id := by rw [Store.told, notices, Store.told]
  constructor
  · exact fun id b found => accounted.numbered id b (buffer id ▸ found)
  · intro id
    rw [told, waiting]
    exact accounted.listeners id
  · intro id positive
    rw [told]
    exact accounted.alive id ((alive id).1 positive)
  · intro id none
    rw [waiting]
    exact accounted.ended id (by have := alive id; omega)
  · exact fun id missing => accounted.fresh id (buffer id ▸ missing)

/-- A change of an entry that leaves its listeners alone, and whether it has handles. -/
theorem modify (accounted : s.Accounted tasks added) {f : Entry → Entry}
    (same : ∀ e, s.entry? id = some e → (f e).buffer = e.buffer ∧ (f e).listeners = e.listeners ∧
      (0 < (f e).handles ↔ 0 < e.handles)) : (s.modify id f).Accounted tasks added := by
  have entry (other : BufferId) : Store.entry? (s.modify id f) other = s.entry? other ∨
      ∃ e, s.entry? other = some e ∧ Store.entry? (s.modify id f) other = some (f e) ∧
        (f e).buffer = e.buffer ∧ (f e).listeners = e.listeners ∧
        (0 < (f e).handles ↔ 0 < e.handles) := by
    rw [entry?_modify]
    split
    · rename_i here
      subst here
      cases found : s.entry? other with
      | none => exact .inl rfl
      | some e => exact .inr ⟨e, rfl, rfl, same e found⟩
    · exact .inl rfl
  refine accounted.congr rfl (fun other => ?_) (fun other => ?_) fun other => ?_
  · rcases entry other with equal | ⟨e, found, changed, buffer, -, -⟩
    · rw [buffer?, equal, buffer?]
    · rw [buffer?, buffer?, found, changed, Option.map_some, Option.map_some, buffer]
  · rcases entry other with equal | ⟨e, found, changed, -, listeners, -⟩
    · rw [waiting, equal, waiting]
    · rw [waiting, waiting, found, changed, Option.map_some, Option.map_some, listeners]
  · rcases entry other with equal | ⟨e, found, changed, -, -, alive⟩
    · rw [handles, equal, handles]
    · rw [handles, handles, found, changed]
      exact alive

theorem waiting_retire (s : Store) (id other : BufferId) :
    (s.retire id).waiting other = if other = id then [] else s.waiting other := by
  rw [waiting, Store.retire, entry?_modify]
  split
  · cases s.entry? other <;> rfl
  · rfl

theorem handles_retire (s : Store) (id other : BufferId) :
    (s.retire id).handles other = if other = id then 0 else s.handles other := by
  rw [handles, Store.retire, entry?_modify]
  split
  · cases s.entry? other <;> rfl
  · rfl

/-- The listeners of a buffer that ends are due, in their order and before what is due already. -/
theorem retire (accounted : s.Accounted rest added) {e : Entry} (found : s.entry? id = some e)
    (last : e.handles = 1) :
    (s.retire id).Accounted (e.listeners.map (.tell · id) ++ rest) added := by
  have buffer (other : BufferId) : (s.retire id).buffer? other = s.buffer? other :=
    buffer?_eq_of_fixed? (s.fixed?_modify id other fun _ => ⟨rfl, rfl⟩)
  have silent := accounted.alive id (by simp [handles, found, last])
  have waits : s.waiting id = e.listeners.map (·.tag) := by rw [waiting, found]; rfl
  constructor
  · exact fun other b known => accounted.numbered other b (buffer other ▸ known)
  · intro other
    have before := accounted.listeners other
    rw [Task.due_append, Task.due_tells, waiting_retire]
    by_cases same : other = id
    · subst same
      rw [if_pos rfl, if_pos rfl, List.append_nil, ← List.append_assoc]
      rw [silent.2, List.append_nil, waits] at before
      rw [silent.2, List.append_nil]
      exact before
    · rw [if_neg same, if_neg (Ne.symm same)]
      exact before
  · intro other positive
    rw [handles_retire] at positive
    have apart : other ≠ id := by
      rintro rfl
      simp at positive
    rw [if_neg apart] at positive
    rw [Task.due_append, Task.due_tells, if_neg (Ne.symm apart)]
    exact accounted.alive other positive
  · intro other none
    rw [handles_retire] at none
    rw [waiting_retire]
    split at none
    · rename_i same
      rw [if_pos same]
    · rename_i apart
      rw [if_neg apart]
      exact accounted.ended other none
  · exact fun other missing => accounted.fresh other (buffer other ▸ missing)

theorem tell {listener : Listener} {ended : BufferId}
    (accounted : s.Accounted (.tell listener ended :: rest) added) :
    Accounted { s with notices := s.notices ++ [⟨listener.tag, ended⟩] }
      (listener.held.map .dropBuffer ++ rest) added := by
  have told (id : BufferId) :
      Store.told { s with notices := s.notices ++ [⟨listener.tag, ended⟩] } id =
        s.told id ++ Task.due id [.tell listener ended] := by
    by_cases same : ended = id <;> simp [Store.told, Task.due, same]
  have due (id : BufferId) : Task.due id (listener.held.map .dropBuffer ++ rest) =
      Task.due id rest := by
    rw [Task.due_append, Task.due_drops, List.nil_append]
  have split (id : BufferId) : Task.due id (.tell listener ended :: rest) =
      Task.due id [.tell listener ended] ++ Task.due id rest := by
    rw [← Task.due_append, List.singleton_append]
  constructor
  · exact accounted.numbered
  · intro id
    rw [told, due, List.append_assoc (s.told id), ← split]
    exact accounted.listeners id
  · intro id positive
    obtain ⟨quiet, none⟩ := accounted.alive id positive
    rw [split, List.append_eq_nil_iff] at none
    rw [told, due, quiet, none.1, none.2]
    exact ⟨rfl, rfl⟩
  · exact accounted.ended
  · exact accounted.fresh

theorem perform {task : Task} (accounted : s.Accounted (task :: rest) added) :
    (s.perform task).1.Accounted ((s.perform task).2 ++ rest) added := by
  cases task with
  | dropBuffer id =>
    have accounted : s.Accounted rest added := { accounted with }
    rw [Store.perform]
    cases found : s.entry? id with
    | none =>
      have found' : s.entries[id.index]? = none := found
      rw [Store.dropBuffer, found']
      exact accounted
    | some e =>
      by_cases last : e.handles = 1
      · have number : e.buffer.id = id := accounted.numbered id e.buffer (by simp [buffer?, found])
        rw [dropBuffer_last found last, number]
        exact accounted.retire found last
      · rw [dropBuffer_shared found last]
        refine accounted.modify fun other known => ⟨rfl, rfl, ?_⟩
        cases found.symm.trans known
        change 0 < e.handles - 1 ↔ 0 < e.handles
        omega
  | dropLayers id =>
    have accounted : s.Accounted rest added := { accounted with }
    obtain ⟨layerSets, ids, dropped⟩ : ∃ layerSets, ∃ ids : List BufferId,
        s.dropLayers id = ({ s with layerSets }, ids.map .dropBuffer) := by
      unfold Store.dropLayers dropSet
      split
      · exact ⟨s.layerSets, [], rfl⟩
      · split
        · exact ⟨_, [], rfl⟩
        · exact ⟨_, _, rfl⟩
        · exact ⟨_, [], rfl⟩
    have due (id : BufferId) : Task.due id (ids.map .dropBuffer ++ rest) = Task.due id rest := by
      rw [Task.due_append, Task.due_drops, List.nil_append]
    rw [Store.perform, dropped]
    exact ⟨accounted.numbered, fun id => due id ▸ accounted.listeners id,
      fun id => due id ▸ accounted.alive id, accounted.ended, accounted.fresh⟩
  | tell listener ended => exact accounted.tell

theorem retain (accounted : s.Accounted tasks added) (alive : 0 < s.handles id) :
    (s.retain id).Accounted tasks added := by
  refine accounted.modify fun e found => ⟨rfl, rfl, ?_⟩
  rw [handles_eq found] at alive
  exact ⟨fun _ => alive, fun _ => Nat.succ_pos _⟩

theorem retain_all (accounted : s.Accounted tasks added) {ids : List BufferId}
    (alive : ∀ id ∈ ids, 0 < s.handles id) : (ids.foldl Store.retain s).Accounted tasks added := by
  induction ids generalizing s with
  | nil => exact accounted
  | cons id ids ih =>
    refine ih (accounted.retain (alive id List.mem_cons_self)) fun other later => ?_
    have before := alive other (List.mem_cons_of_mem _ later)
    exact Nat.lt_of_lt_of_le before (s.handles_retain_le id other)

theorem insert (accounted : s.Accounted tasks added) (width height : UInt32) (format : PixelFormat)
    (mappable : Bool) (pixels : Array UInt8) :
    (s.insert width height format mappable pixels).2.Accounted tasks added := by
  have missing : s.entry? ⟨s.entries.length⟩ = none := List.getElem?_eq_none (Nat.le_refl _)
  have nobody : added ⟨s.entries.length⟩ = [] := accounted.fresh _ (by rw [buffer?, missing]; rfl)
  have nowhere := accounted.listeners ⟨s.entries.length⟩
  rw [nobody, List.append_eq_nil_iff, List.append_eq_nil_iff] at nowhere
  obtain ⟨e, found, number, silent⟩ : ∃ e, Store.entry? (s.insert width height format mappable
      pixels).2 ⟨s.entries.length⟩ = some e ∧ e.buffer.id = ⟨s.entries.length⟩ ∧
        e.listeners = [] := by
    simp [Store.insert, entry?]
  have cases (other : BufferId) : other = ⟨s.entries.length⟩ ∨
      Store.entry? (s.insert width height format mappable pixels).2 other = s.entry? other := by
    by_cases new : other = ⟨s.entries.length⟩
    · exact .inl new
    · exact .inr (entry?_insert_of_ne new)
  constructor
  · intro other b known
    rcases cases other with rfl | same
    · rw [buffer?, found] at known
      cases known
      exact number
    · rw [buffer?, same] at known
      exact accounted.numbered other b known
  · intro other
    rcases cases other with rfl | same
    · rw [waiting, found, nobody, Option.map_some, silent]
      exact List.append_eq_nil_iff.2 ⟨List.append_eq_nil_iff.2 nowhere.1, rfl⟩
    · rw [waiting, same]
      exact accounted.listeners other
  · intro other positive
    rcases cases other with rfl | same
    · exact nowhere.1
    · rw [handles, same] at positive
      exact accounted.alive other positive
  · intro other none
    rcases cases other with rfl | same
    · rw [waiting, found, Option.map_some, silent]
      rfl
    · rw [handles, same] at none
      rw [waiting, same]
      exact accounted.ended other none
  · intro other unknown
    rcases cases other with rfl | same
    · exact nobody
    · rw [buffer?, same] at unknown
      exact accounted.fresh other unknown

/-- A new listener waits behind those that wait already. -/
theorem listen (accounted : s.Accounted tasks added) {listener : Listener}
    (alive : 0 < s.handles id) (held : ∀ other ∈ listener.held, 0 < s.handles other) :
    (s.listen id listener).Accounted tasks
      fun other => added other ++ if other = id then [listener.tag] else [] := by
  have taken := accounted.retain_all held
  have alive := Nat.lt_of_lt_of_le alive (s.handles_retain_all_le listener.held id)
  rw [Store.listen]
  generalize listener.held.foldl Store.retain s = s at taken alive
  obtain ⟨e, found, -⟩ := entry?_isSome_of_handles alive
  have silent := taken.alive id alive
  have entry (other : BufferId) := entry?_modify s id other
    fun e => { e with listeners := e.listeners ++ [listener] }
  have count (other : BufferId) : (s.modify id
      fun e => { e with listeners := e.listeners ++ [listener] }).handles other = s.handles other :=
    handles_modify s id other fun _ => rfl
  have buffer (other : BufferId) : (s.modify id
      fun e => { e with listeners := e.listeners ++ [listener] }).buffer? other = s.buffer? other :=
    buffer?_eq_of_fixed? (s.fixed?_modify id other fun _ => ⟨rfl, rfl⟩)
  constructor
  · exact fun other b known => taken.numbered other b (buffer other ▸ known)
  · intro other
    rw [← taken.listeners other, List.append_assoc _ _ (ite ..)]
    refine congrArg (s.told other ++ Task.due other tasks ++ ·) ?_
    rw [waiting, entry, waiting]
    by_cases same : other = id
    · subst same
      simp [found]
    · simp [same]
  · exact fun other positive => taken.alive other (count other ▸ positive)
  · intro other none
    rw [count] at none
    have apart : other ≠ id := by
      rintro rfl
      omega
    rw [waiting, entry, if_neg apart]
    exact taken.ended other none
  · intro other missing
    rw [buffer] at missing
    have apart : other ≠ id := by
      rintro rfl
      simp [buffer?, found] at missing
    rw [taken.fresh other missing, if_neg apart]
    rfl

end Accounted

end Store

end Compositor
