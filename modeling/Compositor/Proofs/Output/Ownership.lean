import Compositor.Proofs.Output.Client
import Compositor.Proofs.Output.Headless
import Compositor.Proofs.Store.Remains
import Mathlib.Data.List.Perm.Basic

/-!
# What a program owns is all that is held

The store of a program is balanced against the things that the program owns: whatever it calls, the
handles that a thing takes are those of something that is there to be copied, and what it no longer
names is given up. A request that goes into a commit is spent, accepted or not.
-/

namespace Compositor

/-- The same handles, in any order. -/
structure Holding.Perm (h k : Holding) : Prop where
  buffers : h.buffers.Perm k.buffers
  layers : h.layers.Perm k.layers

namespace Holding.Perm

variable {h k l : Holding}

theorem symm (perm : h.Perm k) : k.Perm h := ⟨perm.buffers.symm, perm.layers.symm⟩

theorem trans (first : h.Perm k) (second : k.Perm l) : h.Perm l :=
  ⟨first.buffers.trans second.buffers, first.layers.trans second.layers⟩

theorem append_left (l : Holding) (perm : h.Perm k) : (l ++ h).Perm (l ++ k) :=
  ⟨perm.buffers.append_left l.buffers, perm.layers.append_left l.layers⟩

end Holding.Perm

theorem Store.Balanced.perm {s : Store} {h k : Holding} (balanced : s.Balanced h)
    (perm : h.Perm k) : s.Balanced k :=
  balanced.congr (fun id => perm.buffers.count_eq id) fun id => perm.layers.count_eq id

/-- What staged changes hold after one more: only a buffer or layers can be new. -/
theorem Staged.holding_set {s s' : Staged} {c : Change} {memory : Memory}
    (set : s.set c memory = .ok s') :
    s'.holding = match c with
      | .buffer b => ⟨(b.map (·.id)).toList, s.layers.toList⟩
      | .layers set => ⟨(s.buffer.map (·.id)).toList, [set]⟩
      | _ => s.holding := by
  obtain ⟨-, value, -⟩ := set_ok set
  have buffer : s'.buffer = (c.value? .buffer).getD s.buffer := value .buffer
  have layers : s'.layers = (c.value? .layers).getD s.layers := value .layers
  rw [holding, buffer, layers]
  cases c <;> rfl

namespace HeadlessDisplay

variable {d : HeadlessDisplay} {s : Store} {r : OutputRequest} {k : Holding}

theorem follows_test (d : HeadlessDisplay) (s : Store) (r : OutputRequest) :
    s.Follows (d.test s r).store := by
  obtain same | ⟨set, same⟩ := d.store_test s r
  · rw [same]
    exact .refl s
  · rw [same]
    exact s.follows_mapLayers set rfl

theorem follows_commit (balanced : s.Balanced (r.staged.holding ++ (d.config.holding ++ k))) :
    s.Follows (d.commit s r).2.store := by
  obtain ⟨tested, -⟩ := test_keeps balanced d r
  refine (d.follows_test s r).trans ?_
  unfold commit
  dsimp only
  rw [display_test]
  split
  · refine (Store.follows_exchange fun id mem => ?_).trans (Store.follows_settle _ _)
    refine Store.handles_pos tested ?_
    rcases mem_holding_apply mem with staged | shown
    · exact List.mem_append_left _ staged
    · exact List.mem_append_right _ (List.mem_append_left _ shown)
  · exact Store.follows_settle _ _

end HeadlessDisplay

namespace OutputClient

variable {p p' : OutputClient} {thing old : Owned} {i : Nat} {s : Store}

/-- The handles of everything that a program owns apart from one thing. -/
def without (p : OutputClient) (i : Nat) : Holding := holdingOf (p.owned.eraseIdx i)

def Balanced (p : OutputClient) : Prop := p.store.Balanced p.holding

theorem holdingOf_perm {owned owned' : List Owned} (perm : owned.Perm owned') :
    (holdingOf owned).Perm (holdingOf owned') :=
  ⟨perm.flatMap_right _, perm.flatMap_right _⟩

theorem holding_perm (found : p.owned[i]? = some old) :
    p.holding.Perm (old.holding ++ p.without i) := by
  obtain ⟨bound, rfl⟩ := List.getElem?_eq_some_iff.1 found
  exact holdingOf_perm (List.getElem_cons_eraseIdx_perm bound).symm

theorem holding_put_perm (found : p.owned[i]? = some old) :
    (p.put i thing s).holding.Perm (thing.holding ++ p.without i) :=
  holdingOf_perm (List.set_perm_cons_eraseIdx (List.getElem?_eq_some_iff.1 found).1 thing)

theorem mem_holding_buffers (mem : thing ∈ p.owned) {id : BufferId}
    (held : id ∈ thing.holding.buffers) : id ∈ p.holding.buffers :=
  List.mem_flatMap.2 ⟨thing, mem, held⟩

theorem mem_holding_layers (mem : thing ∈ p.owned) {set : LayerSetId}
    (held : set ∈ thing.holding.layers) : set ∈ p.holding.layers :=
  List.mem_flatMap.2 ⟨thing, mem, held⟩

theorem mem_holding_of_mem_buffers {b : Buffer} (mem : b ∈ p.buffers) :
    b.id ∈ p.holding.buffers := by
  obtain ⟨thing, owned, handle⟩ := List.mem_filterMap.1 mem
  cases thing with
  | handle b' =>
    cases handle
    exact mem_holding_buffers owned (List.mem_singleton_self b.id)
  | _ => cases handle

theorem mem_holding_of_mem_layerSets {set : LayerSetId} (mem : set ∈ p.layerSets) :
    set ∈ p.holding.layers := by
  obtain ⟨thing, owned, handle⟩ := List.mem_filterMap.1 mem
  cases thing with
  | layers set' =>
    cases handle
    exact mem_holding_layers owned (List.mem_singleton_self set)
  | _ => cases handle

/-! ## How things change -/

theorem Balanced.gain (balanced : s.Balanced (thing.holding ++ p.holding)) :
    (p.gain thing s).Balanced :=
  balanced.perm (holdingOf_perm (List.perm_append_singleton thing p.owned).symm)

theorem Balanced.put (found : p.owned[i]? = some old)
    (balanced : s.Balanced (thing.holding ++ p.without i)) : (p.put i thing s).Balanced :=
  balanced.perm (holding_put_perm found).symm

/-- Everything that a thing names is held already. -/
def Holds (p : OutputClient) (thing : Owned) : Prop :=
  (∀ id ∈ thing.holding.buffers, id ∈ p.holding.buffers) ∧
    ∀ set ∈ thing.holding.layers, set ∈ p.holding.layers

theorem holds_of_mem (mem : thing ∈ p.owned) : p.Holds thing :=
  ⟨fun _ => mem_holding_buffers mem, fun _ => mem_holding_layers mem⟩

theorem holds_set {d d' : OutputDraft} {made made' : List Change} {c : Change} {memory : Memory}
    (mem : .draft d made ∈ p.owned) (provided : p.provides c = true)
    (set : d.staged.set c memory = .ok d'.staged) : p.Holds (.draft d' made') := by
  have before : p.Holds (.draft d made) := holds_of_mem mem
  have after := Staged.holding_set set
  unfold Holds Owned.holding at before ⊢
  dsimp only at before ⊢
  rw [after]
  -- Only two changes bring in something new, and the program has a handle of that.
  cases c with
  | buffer b =>
    refine ⟨fun id held => ?_, before.2⟩
    cases b with
    | none => cases held
    | some b =>
      rw [List.mem_singleton.1 held]
      exact mem_holding_of_mem_buffers (List.contains_iff_mem.1 provided)
  | layers new =>
    refine ⟨before.1, fun set held => ?_⟩
    rw [List.mem_singleton.1 held]
    exact mem_holding_of_mem_layerSets (List.contains_iff_mem.1 provided)
  | _ => exact before

theorem holds_apply {c : OutputConfig} {r : OutputRequest} {made : List Change}
    (config : .config c ∈ p.owned) (request : .request r made ∈ p.owned) :
    p.Holds (.config (c.apply r)) := by
  refine ⟨fun id held => ?_, nofun⟩
  rcases HeadlessDisplay.mem_holding_apply held with staged | front
  · exact mem_holding_buffers request staged
  · exact mem_holding_buffers config front

/-- The program stays balanced, and its store becomes what it can become. -/
def Keeps (p p' : OutputClient) : Prop := p'.Balanced ∧ p.store.Follows p'.store

/-- One thing becomes another, which names only what is held already. -/
theorem keeps_exchange (balanced : p.Balanced) (found : p.owned[i]? = some old)
    (held : p.Holds thing) :
    p.Keeps (p.put i thing (p.store.exchange old.holding thing.holding)) := by
  have perm := holding_perm found
  have taken := balanced.perm perm
  refine ⟨.put found (taken.exchange (fun id mem => ?_) fun set mem => ?_), ?_⟩
  · exact perm.buffers.mem_iff.1 (held.1 id mem)
  · exact perm.layers.mem_iff.1 (held.2 set mem)
  · exact Store.follows_exchange fun id mem => Store.handles_pos balanced (held.1 id mem)

/-- One thing becomes another that holds the same. -/
theorem keeps_put (balanced : p.Balanced) (found : p.owned[i]? = some old)
    (same : thing.holding = old.holding) : p.Keeps (p.put i thing p.store) := by
  refine ⟨.put found ?_, .refl p.store⟩
  rw [same]
  exact Store.Balanced.perm balanced (holding_perm found)

theorem keeps_commit (balanced : p.Balanced) {j : Nat} {d : HeadlessDisplay} {r : OutputRequest}
    {made : List Change} (found : p.owned[i]? = some (.display d))
    (there : p.owned[j]? = some (.request r made)) :
    p.Keeps ((p.put j .gone p.store).put i (.display (d.commit p.store r).1)
      (d.commit p.store r).2.store) := by
  have apart : j ≠ i := by
    rintro rfl
    cases found.symm.trans there
  have found' : (p.put j .gone p.store).owned[i]? = some (.display d) :=
    (List.getElem?_set_ne apart).trans found
  -- The request is taken out first, and then the display from what is left.
  have spent : (p.put j .gone p.store).holding.Perm (p.without j) := holding_put_perm there
  have rest : p.holding.Perm (r.staged.holding ++ (p.put j .gone p.store).holding) :=
    (holding_perm there).trans (spent.symm.append_left r.staged.holding)
  have both := balanced.perm (rest.trans ((holding_perm found').append_left r.staged.holding))
  exact ⟨.put found' (HeadlessDisplay.commit_keeps both).1, HeadlessDisplay.follows_commit both⟩

theorem Moves.keeps (moves : p.Moves p') (balanced : p.Balanced) : p.Keeps p' := by
  cases moves with
  | idle => exact ⟨balanced, .refl p.store⟩
  | @made width height format mappable pixels b s inserted =>
    cases inserted
    exact ⟨.gain (balanced.insert width height format mappable pixels),
      p.store.follows_insert width height format mappable pixels⟩
  | stacked layers shown =>
    have held : ∀ id ∈ LayerSet.held ⟨layers, 1⟩, id ∈ p.holding.buffers := by
      intro id mem
      obtain ⟨layer, among, names⟩ := List.mem_filterMap.1 mem
      obtain ⟨b, shows, rfl⟩ := Option.map_eq_some_iff.1 names
      exact mem_holding_of_mem_buffers (shown layer among b shows)
    exact ⟨.gain (balanced.insertLayers held),
      Store.follows_insertLayers fun id mem => Store.handles_pos balanced (held id mem)⟩
  | begun thing blank =>
    refine ⟨.gain ?_, .refl p.store⟩
    rcases blank with rfl | rfl | ⟨output, acceptsLayers, rfl⟩
    all_goals exact balanced
  | copied thing mem =>
    obtain ⟨buffers, layers⟩ := holds_of_mem mem
    exact ⟨.gain (balanced.acquire buffers layers),
      Store.follows_acquire fun id held => Store.handles_pos balanced (buffers id held)⟩
  | dropped i thing found =>
    have taken := balanced.perm (holding_perm found)
    exact ⟨.put found taken.dispose, Store.follows_settle _ _⟩
  | changed i d d' made c memory found provided set =>
    exact keeps_exchange balanced found (holds_set (List.mem_of_getElem? found) provided set)
  | cleared i d made found => exact keeps_exchange balanced found ⟨nofun, nofun⟩
  | replaced i d d' made made' found source =>
    exact keeps_exchange balanced found (holds_of_mem source)
  | frozen i d made found => exact keeps_put balanced found rfl
  | reopened i r made found => exact keeps_put balanced found rfl
  | updated i c r made found source =>
    exact keeps_exchange balanced found (holds_apply (List.mem_of_getElem? found) source)
  | tested d r =>
    exact ⟨(HeadlessDisplay.test_keeps balanced d r).1, d.follows_test p.store r⟩
  | committed i j d r made found there => exact keeps_commit balanced found there

theorem balanced_run (calls : List OutputCall) : (run calls).Balanced :=
  run_induction Store.balanced_empty (fun moves balanced => (moves.keeps balanced).1) calls

theorem follows_run (calls more : List OutputCall) :
    (run calls).store.Follows (run (calls ++ more)).store := by
  have balanced := balanced_run calls
  rw [run, run, List.foldl_append]
  change Balanced (calls.foldl step start) at balanced
  generalize calls.foldl step start = p at balanced
  induction more generalizing p with
  | nil => exact .refl p.store
  | cons call more ih =>
    obtain ⟨next, follows⟩ := (p.step_moves call).keeps balanced
    exact follows.trans (ih _ next)

end OutputClient

end Compositor
