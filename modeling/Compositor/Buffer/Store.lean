import Compositor.Buffer.Layer

/-!
# The store of shared things

A store holds the changing part of every buffer and every layer set, with the number of handles
that keep each of them. Giving up the last handle of a buffer destroys it: its listeners run in the
order in which they were added, and what a listener holds is given up before the next one runs. A
cascade ends because every step uses up a listener or a handle that was waiting.
-/

namespace Compositor

/-- What wants to hear of a buffer's end. -/
structure Listener where
  tag : Nat
  /-- The handles that the listener holds until it has run. -/
  held : List BufferId
deriving DecidableEq, Repr

/-- A listener that ran, and the buffer it ran for. -/
structure Notice where
  tag : Nat
  buffer : BufferId
deriving DecidableEq, Repr

/-- The changing part of a buffer; without handles it is destroyed. -/
structure Entry where
  buffer : Buffer
  handles : Nat
  lock : Lock
  pixels : Array UInt8
  listeners : List Listener

structure Store where
  entries : List Entry
  layerSets : List LayerSet
  /-- The listeners that ran, the oldest first. -/
  notices : List Notice

/-- What giving something up leaves to do. -/
inductive Task where
  | dropBuffer (id : BufferId)
  | dropLayers (id : LayerSetId)
  | tell (listener : Listener) (id : BufferId)

/-- Handles that someone owns. -/
structure Holding where
  buffers : List BufferId
  layers : List LayerSetId

namespace Store

def empty : Store := ⟨[], [], []⟩

instance : Inhabited Store := ⟨empty⟩

def entry? (s : Store) (id : BufferId) : Option Entry := s.entries[id.index]?

/-- The number of handles that keep a buffer. -/
def handles (s : Store) (id : BufferId) : Nat := ((s.entry? id).map (·.handles)).getD 0

def isAlive (s : Store) (id : BufferId) : Bool := 0 < s.handles id

def lock (s : Store) (id : BufferId) : Lock := ((s.entry? id).map (·.lock)).getD .idle

def isLocked (s : Store) (id : BufferId) : Bool := s.lock id != .idle

def pixels (s : Store) (id : BufferId) : Array UInt8 := ((s.entry? id).map (·.pixels)).getD #[]

def modify (s : Store) (id : BufferId) (f : Entry → Entry) : Store :=
  { s with entries := s.entries.modify id.index f }

/-! ## Creation -/

/-- Add a buffer with one handle. -/
def insert (s : Store) (width height : UInt32) (format : PixelFormat) (mappable : Bool)
    (pixels : Array UInt8) : Buffer × Store :=
  let buffer : Buffer := ⟨⟨s.entries.length⟩, width, height, format, mappable⟩
  (buffer, { s with entries := s.entries ++ [⟨buffer, 1, .idle, pixels, []⟩] })

/-- The greatest number of bytes that one buffer can have. -/
def capacity : Nat := UInt64.size / 2 - 1

/-- A buffer whose bytes are zero. -/
def create (s : Store) (width height : UInt32) (format : PixelFormat) :
    Except Fault (Buffer × Store) := do
  let count ← Buffer.byteCount width height
  if capacity < count then throw .capacity
  return s.insert width height format true (Array.replicate count 0)

/-- A buffer with given bytes, of which there have to be as many as its pixels take. -/
def createFrom (s : Store) (width height : UInt32) (format : PixelFormat) (pixels : Array UInt8) :
    Except Fault (Buffer × Store) := do
  let count ← Buffer.byteCount width height
  if pixels.size ≠ count then throw (.pixelLength width height format)
  return s.insert width height format true pixels

/-- A buffer that no processor can map, and so without bytes. -/
def createUnmappable (s : Store) (width height : UInt32) (format : PixelFormat) :
    Buffer × Store :=
  s.insert width height format false #[]

/-! ## Sharing -/

def retain (s : Store) (id : BufferId) : Store :=
  s.modify id fun e => { e with handles := e.handles + 1 }

/-- A new handle of a buffer that is still alive. -/
def retain? (s : Store) (id : BufferId) : Option Store :=
  if s.isAlive id then some (s.retain id) else none

def layers (s : Store) (id : LayerSetId) : List Layer :=
  ((s.layerSets[id.index]?).map (·.layers)).getD []

def retainLayers (s : Store) (id : LayerSetId) : Store :=
  { s with
    layerSets := s.layerSets.modify id.index fun set => { set with owners := set.owners + 1 } }

/-- Take a handle of everything in a holding. -/
def acquire (s : Store) (h : Holding) : Store :=
  h.layers.foldl retainLayers (h.buffers.foldl retain s)

/-- Add a listener; it takes a handle of everything it holds. -/
def listen (s : Store) (id : BufferId) (listener : Listener) : Store :=
  (listener.held.foldl retain s).modify id fun e =>
    { e with listeners := e.listeners ++ [listener] }

/-- Add a set of layers with one owner; it takes a handle of every buffer it shows. -/
def insertLayers (s : Store) (layers : List Layer) : LayerSetId × Store :=
  let set : LayerSet := ⟨layers, 1⟩
  let s := set.held.foldl retain s
  (⟨s.layerSets.length⟩, { s with layerSets := s.layerSets ++ [set] })

/-- Change the layers of a set, for all its owners. -/
def mapLayers (s : Store) (id : LayerSetId) (f : List Layer → List Layer) : Store :=
  { s with
    layerSets := s.layerSets.modify id.index fun set => { set with layers := f set.layers } }

/-! ## Giving up -/

/-- The entry with one handle less, and the listeners to run if that was the last one. -/
def dropEntry (e : Entry) : Entry × List Task :=
  match e.handles with
  | 0 => (e, [])
  | 1 =>
    ({ e with handles := 0, pixels := #[], listeners := [] },
      e.listeners.map fun listener => .tell listener e.buffer.id)
  | n + 2 => ({ e with handles := n + 1 }, [])

/-- The set with one owner less, and the buffers to give up if that was the last one. -/
def dropSet (set : LayerSet) : LayerSet × List Task :=
  match set.owners with
  | 0 => (set, [])
  | 1 => (⟨[], 0⟩, set.held.map .dropBuffer)
  | n + 2 => ({ set with owners := n + 1 }, [])

/-- One handle of a buffer less. -/
def dropBuffer (s : Store) (id : BufferId) : Store × List Task :=
  match s.entries[id.index]? with
  | none => (s, [])
  | some e => ({ s with entries := s.entries.set id.index (dropEntry e).1 }, (dropEntry e).2)

/-- One owner of a layer set less. -/
def dropLayers (s : Store) (id : LayerSetId) : Store × List Task :=
  match s.layerSets[id.index]? with
  | none => (s, [])
  | some set =>
    ({ s with layerSets := s.layerSets.set id.index (dropSet set).1 }, (dropSet set).2)

/-- Do the next task; more tasks may come of it. -/
def perform (s : Store) : Task → Store × List Task
  | .dropBuffer id => s.dropBuffer id
  | .dropLayers id => s.dropLayers id
  | .tell listener id =>
    ({ s with notices := s.notices ++ [⟨listener.tag, id⟩] }, listener.held.map .dropBuffer)

/-! ### Why a cascade ends -/

/-- The weights of all elements of a list together. -/
def total {α : Type} (w : α → Nat) : List α → Nat
  | [] => 0
  | a :: l => w a + total w l

/-- Running a listener takes one step, and one for each handle that it holds. -/
def listenerWeight (listener : Listener) : Nat := 1 + listener.held.length

def entryWeight (e : Entry) : Nat := total listenerWeight e.listeners

def taskWeight : Task → Nat
  | .dropBuffer _ | .dropLayers _ => 1
  | .tell listener _ => listenerWeight listener

def tasksWeight (tasks : List Task) : Nat := total taskWeight tasks

/-- The steps that the listeners and layers in the store can still cause. -/
def weight (s : Store) : Nat :=
  total entryWeight s.entries + total (fun set => set.layers.length) s.layerSets

theorem total_append {α : Type} (w : α → Nat) (l m : List α) :
    total w (l ++ m) = total w l + total w m := by
  induction l with
  | nil => simp [total]
  | cons a l ih =>
    simp only [List.cons_append, total, ih]
    omega

theorem total_map {α β : Type} (w : β → Nat) (f : α → β) (l : List α) :
    total w (l.map f) = total (fun a => w (f a)) l := by
  induction l with
  | nil => rfl
  | cons a l ih => simp only [List.map_cons, total, ih]

theorem total_set {α : Type} (w : α → Nat) (x : α) :
    ∀ (l : List α) (i : Nat) (old : α), l[i]? = some old →
      total w (l.set i x) + w old = total w l + w x
  | [], i, old, h => by simp at h
  | y :: l, 0, old, h => by
    simp only [List.getElem?_cons_zero, Option.some.injEq] at h
    subst h
    simp only [List.set_cons_zero, total]
    omega
  | y :: l, i + 1, old, h => by
    have ih := total_set w x l i old (by simpa using h)
    simp only [List.set_cons_succ, total]
    omega

private theorem tasksWeight_drops (ids : List BufferId) :
    tasksWeight (ids.map .dropBuffer) = ids.length := by
  induction ids with
  | nil => rfl
  | cons id ids ih =>
    simp only [tasksWeight, List.map_cons, total, List.length_cons, taskWeight] at ih ⊢
    omega

private theorem dropEntry_weight (e : Entry) :
    entryWeight (dropEntry e).1 + tasksWeight (dropEntry e).2 = entryWeight e := by
  unfold dropEntry
  split
  · rfl
  · simp [entryWeight, tasksWeight, total_map, total, taskWeight]
  · rfl

private theorem dropSet_weight (set : LayerSet) :
    (dropSet set).1.layers.length + tasksWeight (dropSet set).2 ≤ set.layers.length := by
  unfold dropSet
  split
  · exact Nat.le_refl _
  · rw [tasksWeight_drops]
    simpa [LayerSet.held] using List.length_filterMap_le _ _
  · exact Nat.le_refl _

private theorem dropBuffer_weight (s : Store) (id : BufferId) :
    (s.dropBuffer id).1.weight + tasksWeight (s.dropBuffer id).2 ≤ s.weight := by
  unfold dropBuffer
  split
  · exact Nat.le_refl _
  · rename_i e h
    have all := total_set entryWeight (dropEntry e).1 s.entries id.index e h
    have one := dropEntry_weight e
    simp only [weight]
    omega

private theorem dropLayers_weight (s : Store) (id : LayerSetId) :
    (s.dropLayers id).1.weight + tasksWeight (s.dropLayers id).2 ≤ s.weight := by
  unfold dropLayers
  split
  · exact Nat.le_refl _
  · rename_i set h
    have all := total_set (fun set => set.layers.length) (dropSet set).1 s.layerSets id.index
      set h
    have one := dropSet_weight set
    simp only [weight]
    omega

/-- Every step takes at least one off what is left to do. -/
theorem perform_weight (s : Store) (task : Task) :
    (s.perform task).1.weight + tasksWeight (s.perform task).2 + 1 ≤
      s.weight + taskWeight task := by
  cases task with
  | dropBuffer id =>
    have := s.dropBuffer_weight id
    simp only [perform, taskWeight]
    omega
  | dropLayers id =>
    have := s.dropLayers_weight id
    simp only [perform, taskWeight]
    omega
  | tell listener id =>
    simp only [perform, tasksWeight_drops, weight, taskWeight, listenerWeight]
    omega

/-- Do all tasks, and what comes of each before the next. -/
def settle (s : Store) : List Task → Store
  | [] => s
  | task :: rest => settle (s.perform task).1 ((s.perform task).2 ++ rest)
termination_by tasks => s.weight + tasksWeight tasks
decreasing_by
  have step := s.perform_weight task
  simp only [tasksWeight, total_append, total] at step ⊢
  omega

/-- Give up one handle of a buffer. -/
def release (s : Store) (id : BufferId) : Store := s.settle [.dropBuffer id]

/-- Give up everything in a holding, the buffers first. -/
def dispose (s : Store) (h : Holding) : Store :=
  s.settle (h.buffers.map .dropBuffer ++ h.layers.map .dropLayers)

/-- Replace what an owner holds; the new handles are taken before the old ones are given up. -/
def exchange (s : Store) (old new : Holding) : Store := (s.acquire new).dispose old

end Store

end Compositor
