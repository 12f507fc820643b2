import Compositor.Proofs.Output.Ownership
import Mathlib.Algebra.BigOperators.Intervals

/-!
# The number of handles is the number of references

At any time a buffer has as many handles as there are references to it: the handles that the
program has, the drafts and requests that stage it, the configurations that show it, and the layers
that name it in sets that are still owned. A set counts once, whoever shares it. With the last
reference the buffer ends, and not before.
-/

namespace Compositor

open Finset

def Layer.shows (layer : Layer) (id : BufferId) : Bool := layer.buffer.any (·.id = id)

namespace Owned

/-- A handle of the buffer, a draft or request that stages it, or a configuration that shows it. -/
def refersTo (id : BufferId) : Owned → Bool
  | handle b => b.id = id
  | draft d _ => d.staged.buffer.any (·.id = id)
  | request r _ => r.staged.buffer.any (·.id = id)
  | config c => c.front.any (·.id = id)
  | display d => d.config.front.any (·.id = id)
  | layers _ | gone => false

/-- The layer set that a thing shares. -/
def shares : Owned → Option LayerSetId
  | layers set => some set
  | draft d _ => d.staged.layers
  | request r _ => r.staged.layers
  | handle _ | config _ | display _ | gone => none

theorem count_buffer? (b : Option Buffer) (id : BufferId) :
    (b.map (·.id)).toList.count id = if b.any (·.id = id) then 1 else 0 := by
  cases b with
  | none => rfl
  | some b => simp [List.count_singleton]

theorem count_holding (thing : Owned) (id : BufferId) :
    thing.holding.buffers.count id = if thing.refersTo id then 1 else 0 := by
  cases thing with
  | handle b => exact count_buffer? (some b) id
  | draft d => exact count_buffer? d.staged.buffer id
  | request r => exact count_buffer? r.staged.buffer id
  | config c => exact count_buffer? c.front id
  | display d => exact count_buffer? d.config.front id
  | layers | gone => rfl

theorem layers_holding (thing : Owned) : thing.holding.layers = thing.shares.toList := by
  cases thing <;> rfl

end Owned

theorem LayerSet.count_held (set : LayerSet) (id : BufferId) :
    set.held.count id = set.layers.countP (·.shows id) := by
  rw [LayerSet.held, List.count, List.countP_filterMap]
  congr
  funext layer
  cases shown : layer.buffer <;> simp [Layer.shows, shown, beq_eq_decide]

namespace Store

variable {s : Store} {h : Holding}

theorem total_eq_sum {α : Type} (w : α → Nat) (l : List α) :
    total w l = ∑ i ∈ range l.length, ((l[i]?).map w).getD 0 := by
  induction l with
  | nil => rfl
  | cons a l ih =>
    rw [List.length_cons, sum_range_succ', total, ih, Nat.add_comm]
    rfl

/-- In a tidy store only layers hold buffers. -/
theorem Tidy.inner_eq (tidy : s.Tidy) : s.inner = s.layerSets.flatMap LayerSet.held := by
  have none : s.entries.flatMap Entry.held = [] := by
    refine List.flatMap_eq_nil_iff.2 fun e mem => ?_
    obtain ⟨i, found⟩ := List.mem_iff_getElem?.1 mem
    rw [Entry.held, (tidy.entries ⟨i⟩ e found).1, List.flatMap_nil]
  rw [inner, none, List.nil_append]

theorem Tidy.layers_of_owners (tidy : s.Tidy) {set : LayerSetId} (none : s.owners set = 0) :
    s.layers set = [] := by
  unfold owners at none
  unfold layers
  cases found : s.layerSets[set.index]? with
  | none => rfl
  | some shared =>
    rw [found] at none
    exact tidy.layerSets shared (List.mem_of_getElem? found) none

theorem Balanced.lt_length (balanced : s.Balanced h) {set : LayerSetId} (mem : set ∈ h.layers) :
    set.index < s.layerSets.length := by
  by_contra beyond
  have owned := balanced.owners set
  have positive := List.count_pos_iff.2 mem
  rw [Store.owners, List.getElem?_eq_none (not_lt.1 beyond)] at owned
  exact positive.ne owned

/-- The layers that hold a buffer are those of the sets that are still owned. -/
theorem Tidy.count_inner (tidy : s.Tidy) (balanced : s.Balanced h) (id : BufferId) :
    s.inner.count id = ∑ set ∈ h.layers.toFinset, (s.layers set).countP (·.shows id) := by
  have each (set : LayerSetId) : (s.layers set).countP (·.shows id) =
      ((s.layerSets[set.index]?).map fun shared => shared.held.count id).getD 0 := by
    unfold layers
    cases s.layerSets[set.index]? with
    | none => rfl
    | some shared => exact (shared.count_held id).symm
  rw [tidy.inner_eq, count_flatMap, total_eq_sum]
  symm
  refine sum_of_injOn LayerSetId.index (fun _ _ _ _ => LayerSetId.index_inj.1) (fun set mem => ?_)
    (fun i _ other => ?_) fun set _ => each set
  · exact mem_coe.2 (mem_range.2 (balanced.lt_length (List.mem_toFinset.1 mem)))
  · -- A set that nobody owns has no layers.
    have notMem : ⟨i⟩ ∉ h.layers := fun mem =>
      other ⟨⟨i⟩, mem_coe.2 (List.mem_toFinset.2 mem), rfl⟩
    have unowned : s.owners ⟨i⟩ = 0 :=
      (balanced.owners ⟨i⟩).trans (List.count_eq_zero_of_not_mem notMem)
    rw [← each ⟨i⟩, tidy.layers_of_owners unowned, List.countP_nil]

end Store

namespace OutputClient

/-- The references to a buffer: things that refer to it, and layers that show it in sets that are
still shared, each set taken once. -/
def references (p : OutputClient) (id : BufferId) : Nat :=
  p.owned.countP (·.refersTo id) +
    ∑ set ∈ (p.owned.filterMap Owned.shares).toFinset, (p.store.layers set).countP (·.shows id)

variable {p p' : OutputClient}

theorem count_holding (p : OutputClient) (id : BufferId) :
    p.holding.buffers.count id = p.owned.countP (·.refersTo id) := by
  unfold holding holdingOf
  induction p.owned with
  | nil => rfl
  | cons thing owned ih =>
    rw [List.flatMap_cons, List.count_append, ih, List.countP_cons, thing.count_holding,
      Nat.add_comm]

theorem layers_holding (p : OutputClient) :
    p.holding.layers = p.owned.filterMap Owned.shares := by
  rw [List.filterMap_eq_flatMap_toList]
  exact congrArg p.owned.flatMap (funext Owned.layers_holding)

theorem tidy_run (calls : List OutputCall) : (run calls).store.Tidy :=
  (follows_run [] calls).tidy Store.tidy_empty

theorem handles_run (calls : List OutputCall) (id : BufferId) :
    (run calls).store.handles id = (run calls).references id := by
  have balanced := balanced_run calls
  rw [balanced.handles id, (tidy_run calls).count_inner balanced id, count_holding, layers_holding]
  rfl

/-- Whatever a program calls, at any time each buffer has as many handles as there are references
to it, and is alive as long as there are any. However the program goes on, the buffer keeps its
bytes while it is referred to; without references it has none, and it never comes back. -/
theorem handles_are_references (calls more : List OutputCall) (id : BufferId) :
    let p := run calls
    let p' := run (calls ++ more)
    p.store.handles id = p.references id ∧
    (p.store.isAlive id = true ↔ 0 < p.references id) ∧
    ∀ e, p.store.entry? id = some e →
      (0 < p'.references id → p'.store.pixels id = e.pixels) ∧
      (p.references id = 0 →
        e.pixels = #[] ∧ p'.references id = 0 ∧ p'.store.entry? id = some e) := by
  intro p p'
  have now : p.store.handles id = p.references id := handles_run calls id
  have later : p'.store.handles id = p'.references id := handles_run (calls ++ more) id
  refine ⟨now, ?_, fun e found => ?_⟩
  · rw [← now, Store.isAlive, decide_eq_true_iff]
  · obtain ⟨e', found', keeps, stays⟩ := (follows_run calls more).entries id e found
    have handles : e.handles = p.references id := (Store.handles_eq found).symm.trans now
    have handles' : e'.handles = p'.references id := (Store.handles_eq found').symm.trans later
    refine ⟨fun referred => ?_, fun none => ?_⟩
    · have same := keeps (handles' ▸ referred)
      rwa [Store.pixels, found']
    · have ended : e.handles = 0 := handles.trans none
      rw [stays ended] at found' handles'
      exact ⟨((tidy_run calls).entries id e found).2 ended, handles'.symm.trans ended, found'⟩

/-- A buffer stays with a copied draft and with a display after the program gave up its own handle
and the layers; it ends when these go as well. -/
theorem buffer_ends_with_display :
    let b : Buffer := ⟨⟨0⟩, 1, 1, .argb8888, true⟩
    let layer := Layer.request 0 (some b) ⟨0, 0, 1, 1⟩ (.ofSize 1 1)
    let memory := Memory.ofSize 0 (by decide)
    let calls : List OutputCall := [.createFrom 1 1 .argb8888 #[1, 2, 3, 4],
      .stack [layer, layer], .draft, .change 2 (.buffer (some b)) memory,
      .change 2 (.layers ⟨0⟩) memory, .copy 2 memory, .freeze 2, .display ⟨1⟩ true, .commit 4 2,
      .drop 0, .drop 1]
    let ended : List OutputCall := calls ++ [.clear 3, .drop 4]
    (run calls).store.handles b.id = 4 ∧ 0 < (run (calls ++ [.clear 3])).references b.id ∧
      (run (calls ++ [.clear 3])).store.pixels b.id = #[1, 2, 3, 4] ∧
      (run ended).references b.id = 0 ∧ (run ended).store.pixels b.id = #[] ∧
      (run (ended ++ [.draft])).references b.id = 0 := by
  intro b layer memory calls ended
  obtain ⟨count, -, kept⟩ := handles_are_references calls [.clear 3] b.id
  obtain ⟨-, -, gone⟩ := handles_are_references ended [.draft] b.id
  -- The draft and the display have one each, the two layers of the copy's set another two.
  have four : (run calls).references b.id = 4 := by decide +kernel
  have one : 0 < (run (calls ++ [.clear 3])).references b.id := by decide +kernel
  have none : (run ended).references b.id = 0 := by decide +kernel
  have bytes : (run calls).store.pixels b.id = #[1, 2, 3, 4] := by decide +kernel
  obtain ⟨e, found⟩ : ∃ e, (run calls).store.entry? b.id = some e :=
    Option.isSome_iff_exists.1 (by decide +kernel)
  obtain ⟨last, found'⟩ : ∃ e, (run ended).store.entry? b.id = some e :=
    Option.isSome_iff_exists.1 (by decide +kernel)
  rw [Store.pixels, found] at bytes
  obtain ⟨released, after, -⟩ := (gone last found').2 none
  have gone' : (run ended).store.pixels b.id = #[] := by
    rw [Store.pixels, found']
    exact released
  exact ⟨count.trans four, one, ((kept e found).1 one).trans bytes, none, gone', after⟩

end OutputClient

end Compositor
