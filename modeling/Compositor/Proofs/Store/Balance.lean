import Compositor.Buffer.Access

/-!
# Every handle is accounted for

A store is balanced against a holding if the number of handles of every buffer is the number of
times that the holding, the waiting listeners and the layer sets name it. Operations move handles
between these places; a cascade gives up exactly what its tasks hold. A buffer in the holding is
never destroyed meanwhile: its entry stays as it was, the number of handles apart.
-/

namespace Compositor

namespace Holding

instance : Append Holding := ⟨fun h k => ⟨h.buffers ++ k.buffers, h.layers ++ k.layers⟩⟩

@[simp] theorem buffers_append (h k : Holding) : (h ++ k).buffers = h.buffers ++ k.buffers := rfl

@[simp] theorem layers_append (h k : Holding) : (h ++ k).layers = h.layers ++ k.layers := rfl

theorem append_assoc (h k l : Holding) : h ++ k ++ l = h ++ (k ++ l) := by
  change (⟨h.buffers ++ k.buffers ++ l.buffers, h.layers ++ k.layers ++ l.layers⟩ : Holding) = _
  rw [List.append_assoc, List.append_assoc]
  rfl

/-- One handle of a buffer. -/
def single (id : BufferId) : Holding := ⟨[id], []⟩

theorem buffers_single (id : BufferId) : (single id).buffers = [id] := rfl

theorem layers_single (id : BufferId) : (single id).layers = [] := rfl

end Holding

namespace Task

/-- The handles that a task will give up. -/
def holding : Task → Holding
  | dropBuffer id => ⟨[id], []⟩
  | dropLayers id => ⟨[], [id]⟩
  | tell listener _ => ⟨listener.held, []⟩

def holdings (tasks : List Task) : Holding :=
  ⟨tasks.flatMap (·.holding.buffers), tasks.flatMap (·.holding.layers)⟩

theorem holdings_cons (task : Task) (rest : List Task) :
    holdings (task :: rest) = task.holding ++ holdings rest := rfl

theorem holdings_append (tasks rest : List Task) :
    holdings (tasks ++ rest) = holdings tasks ++ holdings rest := by
  simp only [holdings, List.flatMap_append]
  rfl

theorem holdings_dropBuffers (ids : List BufferId) :
    holdings (ids.map .dropBuffer) = ⟨ids, []⟩ := by
  induction ids with
  | nil => rfl
  | cons id ids ih =>
    rw [List.map_cons, holdings_cons, ih]
    rfl

theorem holdings_dropLayers (ids : List LayerSetId) :
    holdings (ids.map .dropLayers) = ⟨[], ids⟩ := by
  induction ids with
  | nil => rfl
  | cons id ids ih =>
    rw [List.map_cons, holdings_cons, ih]
    rfl

end Task

/-- The handles that the listeners of a buffer hold. -/
def Entry.held (e : Entry) : List BufferId := e.listeners.flatMap (·.held)

theorem BufferId.index_inj {a b : BufferId} : a.index = b.index ↔ a = b := by
  cases a
  cases b
  simp

theorem LayerSetId.index_inj {a b : LayerSetId} : a.index = b.index ↔ a = b := by
  cases a
  cases b
  simp

namespace Store

/-- The handles that are held inside the store: by waiting listeners and by layer sets. -/
def inner (s : Store) : List BufferId :=
  s.entries.flatMap Entry.held ++ s.layerSets.flatMap LayerSet.held

/-- The number of owners that share a layer set. -/
def owners (s : Store) (id : LayerSetId) : Nat := ((s.layerSets[id.index]?).map (·.owners)).getD 0

structure Balanced (s : Store) (h : Holding) : Prop where
  handles : ∀ id, s.handles id = h.buffers.count id + s.inner.count id
  owners : ∀ id, s.owners id = h.layers.count id

/-- A new store accounts for nothing. -/
theorem balanced_empty : empty.Balanced ⟨[], []⟩ := ⟨fun _ => rfl, fun _ => rfl⟩

/-- Only the numbers count, so a holding may be listed in any order. -/
theorem Balanced.congr {s : Store} {h k : Holding} (balanced : s.Balanced h)
    (buffers : ∀ id, h.buffers.count id = k.buffers.count id)
    (layers : ∀ id, h.layers.count id = k.layers.count id) : s.Balanced k :=
  ⟨fun id => buffers id ▸ balanced.handles id, fun id => layers id ▸ balanced.owners id⟩

theorem Balanced.left_comm {s : Store} {h k l : Holding} (balanced : s.Balanced (h ++ (k ++ l))) :
    s.Balanced (k ++ (h ++ l)) := by
  refine balanced.congr (fun id => ?_) fun id => ?_
  · simp only [Holding.buffers_append, List.count_append]
    omega
  · simp only [Holding.layers_append, List.count_append]
    omega

theorem handles_pos {s : Store} {h : Holding} (balanced : s.Balanced h) {id : BufferId}
    (mem : id ∈ h.buffers) : 0 < s.handles id := by
  have := balanced.handles id
  have := List.count_pos_iff.2 mem
  omega

theorem entry?_isSome_of_handles {s : Store} {id : BufferId} (h : 0 < s.handles id) :
    ∃ e, s.entry? id = some e ∧ e.handles = s.handles id := by
  unfold handles at h ⊢
  cases found : s.entry? id with
  | none => simp [found] at h
  | some e => exact ⟨e, rfl, rfl⟩

/-! ## One step of a cascade -/

theorem count_flatMap {α : Type} (f : α → List BufferId) (id : BufferId) (l : List α) :
    (l.flatMap f).count id = total (fun a => (f a).count id) l := by
  induction l with
  | nil => rfl
  | cons a l ih => rw [List.flatMap_cons, List.count_append, ih, total]

theorem count_flatMap_set {α : Type} (f : α → List BufferId) (id : BufferId) {l : List α} {i : Nat}
    {old : α} (x : α) (h : l[i]? = some old) :
    ((l.set i x).flatMap f).count id + (f old).count id =
      (l.flatMap f).count id + (f x).count id := by
  rw [count_flatMap, count_flatMap]
  exact total_set (fun a => (f a).count id) x l i old h

theorem dropEntry_held (e : Entry) (id : BufferId) :
    (dropEntry e).1.held.count id + (Task.holdings (dropEntry e).2).buffers.count id =
      e.held.count id := by
  unfold dropEntry
  split
  · simp [Task.holdings]
  · simp [Task.holdings, Entry.held, List.flatMap_map, Task.holding]
  · simp [Task.holdings, Entry.held]

theorem dropEntry_handles (e : Entry) : (dropEntry e).1.handles = e.handles - 1 := by
  unfold dropEntry
  split <;> simp_all

theorem dropEntry_layers (e : Entry) : (Task.holdings (dropEntry e).2).layers = [] := by
  unfold dropEntry
  split <;> simp [Task.holdings, Task.holding, List.flatMap_map]

theorem dropSet_held (set : LayerSet) (id : BufferId) :
    (dropSet set).1.held.count id + (Task.holdings (dropSet set).2).buffers.count id =
      set.held.count id := by
  unfold dropSet
  split
  · simp [Task.holdings]
  · rw [Task.holdings_dropBuffers]
    simp [LayerSet.held]
  · simp [Task.holdings, LayerSet.held]

theorem dropSet_owners (set : LayerSet) : (dropSet set).1.owners = set.owners - 1 := by
  unfold dropSet
  split <;> simp_all

theorem dropSet_layers (set : LayerSet) : (Task.holdings (dropSet set).2).layers = [] := by
  unfold dropSet
  split
  · rfl
  · rw [Task.holdings_dropBuffers]
  · rfl

theorem handles_dropBuffer (s : Store) (id other : BufferId) :
    (s.dropBuffer id).1.handles other =
      if other = id then s.handles other - 1 else s.handles other := by
  unfold Store.dropBuffer
  split
  · rename_i missing
    split
    · subst id
      simp [handles, entry?, missing]
    · rfl
  · rename_i e found
    split
    · subst id
      simp [handles, entry?, List.getElem?_set, found, dropEntry_handles]
      grind
    · rename_i apart
      have apart' : id.index ≠ other.index := fun h => apart (BufferId.index_inj.1 h.symm)
      simp [handles, entry?, List.getElem?_set_ne apart']

theorem owners_dropLayers (s : Store) (id other : LayerSetId) :
    (s.dropLayers id).1.owners other =
      if other = id then s.owners other - 1 else s.owners other := by
  unfold Store.dropLayers
  split
  · rename_i missing
    split
    · subst id
      simp [owners, missing]
    · rfl
  · rename_i set found
    split
    · subst id
      simp [owners, List.getElem?_set, found, dropSet_owners]
      grind
    · rename_i apart
      have apart' : id.index ≠ other.index := fun h => apart (LayerSetId.index_inj.1 h.symm)
      simp [owners, List.getElem?_set_ne apart']

/-- What an entry that is destroyed held is now held by the tasks. -/
theorem inner_dropBuffer (s : Store) (id other : BufferId) :
    (s.dropBuffer id).1.inner.count other +
      (Task.holdings (s.dropBuffer id).2).buffers.count other = s.inner.count other := by
  unfold Store.dropBuffer
  split
  · simp [Task.holdings]
  · rename_i e found
    have kept := dropEntry_held e other
    have moved := count_flatMap_set Entry.held other (dropEntry e).1 found
    simp only [inner, List.count_append]
    omega

theorem inner_dropLayers (s : Store) (id : LayerSetId) (other : BufferId) :
    (s.dropLayers id).1.inner.count other +
      (Task.holdings (s.dropLayers id).2).buffers.count other = s.inner.count other := by
  unfold Store.dropLayers
  split
  · simp [Task.holdings]
  · rename_i set found
    have kept := dropSet_held set other
    have moved := count_flatMap_set LayerSet.held other (dropSet set).1 found
    simp only [inner, List.count_append]
    omega

theorem layers_dropBuffer (s : Store) (id : BufferId) :
    (Task.holdings (s.dropBuffer id).2).layers = [] ∧
      (s.dropBuffer id).1.layerSets = s.layerSets := by
  unfold Store.dropBuffer
  split
  · exact ⟨rfl, rfl⟩
  · exact ⟨dropEntry_layers _, rfl⟩

theorem layers_dropLayers (s : Store) (id : LayerSetId) :
    (Task.holdings (s.dropLayers id).2).layers = [] ∧
      (s.dropLayers id).1.entries = s.entries := by
  unfold Store.dropLayers
  split
  · exact ⟨rfl, rfl⟩
  · exact ⟨dropSet_layers _, rfl⟩

theorem Balanced.perform {s : Store} {h : Holding} {task : Task}
    (balanced : s.Balanced (task.holding ++ h)) :
    (s.perform task).1.Balanced (Task.holdings (s.perform task).2 ++ h) := by
  cases task with
  | dropBuffer id =>
    obtain ⟨layers, sets⟩ := s.layers_dropBuffer id
    constructor
    · intro other
      have count := balanced.handles other
      have moved := s.inner_dropBuffer id other
      simp only [Store.perform, handles_dropBuffer]
      simp only [Task.holding, Holding.buffers_append, List.count_append, List.count_cons,
        List.count_nil, beq_iff_eq] at count ⊢
      grind
    · intro other
      have count := balanced.owners other
      simp only [Store.perform, Holding.layers_append, layers, Store.owners, sets]
      exact count
  | dropLayers id =>
    obtain ⟨layers, entries⟩ := s.layers_dropLayers id
    constructor
    · intro other
      have count := balanced.handles other
      have moved := s.inner_dropLayers id other
      simp only [Store.perform, Store.handles, entry?, entries]
      simp only [Store.handles, entry?, Task.holding, Holding.buffers_append,
        List.count_append, List.count_nil] at count ⊢
      omega
    · intro other
      have count := balanced.owners other
      simp only [Store.perform, owners_dropLayers, Holding.layers_append, layers]
      simp only [Task.holding, Holding.layers_append, List.count_append, List.count_cons,
        List.count_nil, beq_iff_eq] at count ⊢
      grind
  | tell listener id =>
    simp only [Store.perform, Task.holdings_dropBuffers]
    exact ⟨balanced.handles, balanced.owners⟩

/-- A cascade gives up what its tasks hold, and nothing else. -/
theorem Balanced.settle {s : Store} {h : Holding} {tasks : List Task}
    (balanced : s.Balanced (Task.holdings tasks ++ h)) : (s.settle tasks).Balanced h := by
  fun_induction Store.settle s tasks with
  | case1 s => exact balanced
  | case2 s task rest ih =>
    rw [Task.holdings_cons, Holding.append_assoc] at balanced
    apply ih
    rw [Task.holdings_append, Holding.append_assoc]
    exact balanced.perform

/-! ## What stays -/

/-- The entry of a buffer stays as it was, the number of handles apart. -/
def Keeps (s s' : Store) (id : BufferId) : Prop :=
  ∃ n, s'.entry? id = (s.entry? id).map ({ · with handles := n })

theorem Keeps.of_eq {s s' : Store} {id : BufferId} (h : s'.entry? id = s.entry? id) :
    s.Keeps s' id := by
  refine ⟨s.handles id, h.trans ?_⟩
  unfold handles
  cases s.entry? id <;> rfl

theorem Keeps.refl (s : Store) (id : BufferId) : s.Keeps s id := .of_eq rfl

theorem Keeps.trans {s s' s'' : Store} {id : BufferId} (h : s.Keeps s' id) (h' : s'.Keeps s'' id) :
    s.Keeps s'' id := by
  obtain ⟨n, h⟩ := h
  obtain ⟨m, h'⟩ := h'
  exact ⟨m, by rw [h', h, Option.map_map]; rfl⟩

theorem Keeps.pixels {s s' : Store} {id : BufferId} (h : s.Keeps s' id) :
    s'.pixels id = s.pixels id := by
  obtain ⟨n, h⟩ := h
  unfold Store.pixels
  rw [h, Option.map_map]
  rfl

/-- Someone else still holds the buffer, so this is not the last handle. -/
theorem keeps_dropBuffer {s : Store} {id other : BufferId}
    (h : other = id → 1 < s.handles id) : s.Keeps (s.dropBuffer id).1 other := by
  unfold Store.dropBuffer
  split
  · exact .refl s other
  · rename_i e found
    by_cases same : other = id
    · subst same
      have many : 1 < e.handles := by
        have := h rfl
        rwa [handles, entry?, found] at this
      have bound := (List.getElem?_eq_some_iff.1 found).1
      refine ⟨e.handles - 1, ?_⟩
      simp only [found, entry?, List.getElem?_set_self bound, Option.map_some]
      unfold dropEntry
      split <;> simp_all
    · have apart : id.index ≠ other.index := fun h => same (BufferId.index_inj.1 h.symm)
      exact .of_eq (by simp [List.getElem?_set_ne apart, entry?])

theorem Balanced.keeps_perform {s : Store} {h : Holding} {task : Task}
    (balanced : s.Balanced (task.holding ++ h)) {id : BufferId} (mem : id ∈ h.buffers) :
    s.Keeps (s.perform task).1 id := by
  cases task with
  | dropBuffer other =>
    refine keeps_dropBuffer fun same => ?_
    subst same
    have count := balanced.handles id
    have := List.count_pos_iff.2 mem
    simp [Task.holding] at count
    omega
  | dropLayers other => exact .of_eq (by simp [Store.perform, entry?, layers_dropLayers])
  | tell listener other => exact .of_eq rfl

/-- A buffer that someone holds outlives every cascade, and its entry stays as it was. -/
theorem Balanced.keeps_settle {s : Store} {h : Holding} {tasks : List Task}
    (balanced : s.Balanced (Task.holdings tasks ++ h)) {id : BufferId} (mem : id ∈ h.buffers) :
    s.Keeps (s.settle tasks) id := by
  fun_induction Store.settle s tasks with
  | case1 s => exact .refl s id
  | case2 s task rest ih =>
    rw [Task.holdings_cons, Holding.append_assoc] at balanced
    refine (balanced.keeps_perform (List.mem_append_right _ mem)).trans (ih ?_)
    rw [Task.holdings_append, Holding.append_assoc]
    exact balanced.perform

end Store

end Compositor
