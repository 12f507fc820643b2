import Compositor.Proofs.Output.Commits
import Compositor.Proofs.Store.Operations

/-!
# What a commit does to the store

A display marks layers, takes a handle of its new front buffer and gives up the old one, and the
request gives up what it holds. Nothing else changes hands, and nobody else's pixels change.
-/

namespace Compositor

namespace Store

variable {s : Store} {h : Holding}

/-- Layers may change as long as they show the same buffers. -/
theorem Balanced.mapLayers (balanced : s.Balanced h) (id : LayerSetId)
    {f : List Layer → List Layer}
    (same : ∀ layers, (f layers).map (·.buffer) = layers.map (·.buffer)) :
    (s.mapLayers id f).Balanced h := by
  have held (set : LayerSet) :
      ({ set with layers := f set.layers } : LayerSet).held = set.held := by
    have shown (layers : List Layer) : layers.filterMap (fun layer => layer.buffer.map (·.id)) =
        (layers.map (·.buffer)).filterMap (Option.map (·.id)) := by
      rw [List.filterMap_map]
      rfl
    unfold LayerSet.held
    rw [shown, shown, same]
  constructor
  · intro other
    have inner : (s.mapLayers id f).inner = s.inner := by
      simp only [Store.inner, Store.mapLayers, flatMap_modify held]
    rw [inner]
    exact balanced.handles other
  · intro other
    rw [← balanced.owners other]
    simp only [Store.owners, Store.mapLayers, List.getElem?_modify]
    cases s.layerSets[other.index]? with
    | none => rfl
    | some set =>
      simp only [Option.map_some]
      split <;> rfl

end Store

namespace HeadlessDisplay

variable {d : HeadlessDisplay} {s : Store} {r : OutputRequest} {k : Holding}

/-- A test marks the layers of one set, if any. -/
theorem store_test (d : HeadlessDisplay) (s : Store) (r : OutputRequest) :
    (d.test s r).store = s ∨ ∃ set, (d.test s r).store =
      s.mapLayers set (·.map ({ · with accepted := d.acceptsLayers })) := by
  unfold test
  dsimp only
  split <;> cases r.staged.layers <;> grind

theorem test_keeps (balanced : s.Balanced k) (d : HeadlessDisplay) (r : OutputRequest) :
    (d.test s r).store.Balanced k ∧ ∀ id, (d.test s r).store.pixels id = s.pixels id := by
  obtain same | ⟨set, same⟩ := d.store_test s r
  · rw [same]
    exact ⟨balanced, fun _ => rfl⟩
  · rw [same]
    refine ⟨balanced.mapLayers set fun layers => ?_, fun _ => rfl⟩
    rw [List.map_map]
    rfl

/-- The front buffer of a new configuration comes from the request or from the old one. -/
theorem mem_holding_apply {c : OutputConfig} {id : BufferId}
    (mem : id ∈ (c.apply r).holding.buffers) :
    id ∈ r.staged.holding.buffers ∨ id ∈ c.holding.buffers := by
  unfold OutputConfig.apply OutputConfig.holding at mem
  dsimp only at mem
  split at mem
  · exact .inl mem
  · exact .inr mem

/-- After a commit the request holds nothing, and the display what its configuration names. -/
theorem commit_keeps (balanced : s.Balanced (r.staged.holding ++ (d.config.holding ++ k))) :
    (d.commit s r).2.store.Balanced ((d.commit s r).1.config.holding ++ k) ∧
      ∀ id ∈ k.buffers, (d.commit s r).2.store.pixels id = s.pixels id := by
  obtain ⟨tested, pixels⟩ := test_keeps balanced d r
  unfold commit
  dsimp only
  rw [display_test]
  split
  · have own : (d.test s r).store.Balanced (d.config.holding ++ (r.staged.holding ++ k)) :=
      tested.left_comm
    have buffers : ∀ id ∈ (d.config.apply r).holding.buffers,
        id ∈ (d.config.holding ++ (r.staged.holding ++ k)).buffers := by
      intro id mem
      rcases mem_holding_apply mem with staged | shown
      · exact List.mem_append_right _ (List.mem_append_left _ staged)
      · exact List.mem_append_left _ shown
    have layers : ∀ id ∈ (d.config.apply r).holding.layers,
        id ∈ (d.config.holding ++ (r.staged.holding ++ k)).layers := by
      intro id mem
      cases mem
    have updated : ((d.config.update (d.test s r).store r).2).Balanced
        (r.staged.holding ++ ((d.config.apply r).holding ++ k)) :=
      (own.exchange buffers layers).left_comm
    refine ⟨updated.dispose, fun id mem => ?_⟩
    calc (r.discard (d.config.update (d.test s r).store r).2).pixels id
      _ = (d.config.update (d.test s r).store r).2.pixels id :=
        (updated.keeps_dispose (List.mem_append_right _ mem)).pixels
      _ = (d.test s r).store.pixels id :=
        (own.keeps_exchange buffers layers (List.mem_append_right _ mem)).pixels
      _ = s.pixels id := pixels id
  · refine ⟨tested.dispose, fun id mem => ?_⟩
    rw [OutputRequest.discard, (tested.keeps_dispose (List.mem_append_right _ mem)).pixels]
    exact pixels id

end HeadlessDisplay

end Compositor
