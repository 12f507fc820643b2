import Compositor.Proofs.Store.Listening

/-!
# What is left of things that have ended

In a store where nobody listens, a buffer that has ended has no bytes and a layer set without owners
has no layers. Whatever is taken and given up, this stays so. A buffer keeps its bytes as long as it
has handles; once it has ended, nothing of it changes any more.
-/

namespace Compositor

/-- Nobody listens, and without handles there is nothing left. -/
def Entry.Tidy (e : Entry) : Prop := e.listeners = [] ∧ (e.handles = 0 → e.pixels = #[])

/-- What an entry can become while nobody writes: it keeps its bytes as long as it has handles, and
one that has ended stays as it is. -/
def Entry.Becomes (e e' : Entry) : Prop :=
  (0 < e'.handles → e'.pixels = e.pixels) ∧ (e.handles = 0 → e' = e)

namespace Entry.Becomes

variable {e e' e'' : Entry}

theorem refl (e : Entry) : e.Becomes e := ⟨fun _ => rfl, fun _ => rfl⟩

theorem trans (first : e.Becomes e') (second : e'.Becomes e'') : e.Becomes e'' := by
  refine ⟨fun held => ?_, fun ended => ?_⟩
  · -- Had it ended in between, it would not have handles now.
    have before : 0 < e'.handles := by
      refine Nat.pos_of_ne_zero fun ended => ?_
      rw [second.2 ended, ended] at held
      exact Nat.lt_irrefl 0 held
    rw [second.1 held, first.1 before]
  · have same := first.2 ended
    subst same
    exact second.2 ended

end Entry.Becomes

def LayerSet.Tidy (set : LayerSet) : Prop := set.owners = 0 → set.layers = []

namespace Store

structure Tidy (s : Store) : Prop where
  entries : ∀ id e, s.entry? id = some e → e.Tidy
  layerSets : ∀ set ∈ s.layerSets, set.Tidy

theorem tidy_empty : empty.Tidy where
  entries _ _ found := by cases found
  layerSets _ mem := by cases mem

/-- What can become of a store while nobody writes. -/
structure Follows (s s' : Store) : Prop where
  tidy : s.Tidy → s'.Tidy
  entries : ∀ id e, s.entry? id = some e → ∃ e', s'.entry? id = some e' ∧ e.Becomes e'

variable {s s' s'' : Store} {k : Holding} {id : BufferId}

namespace Follows

theorem refl (s : Store) : s.Follows s := ⟨fun tidy => tidy, fun _ e found => ⟨e, found, .refl e⟩⟩

theorem trans (first : s.Follows s') (second : s'.Follows s'') : s.Follows s'' := by
  refine ⟨fun tidy => second.tidy (first.tidy tidy), fun id e found => ?_⟩
  obtain ⟨e', found', becomes⟩ := first.entries id e found
  obtain ⟨e'', found'', becomes'⟩ := second.entries id e' found'
  exact ⟨e'', found'', becomes.trans becomes'⟩

/-- A change of layer sets alone. -/
theorem of_layerSets {layerSets : List LayerSet}
    (tidy : s.Tidy → ∀ set ∈ layerSets, set.Tidy) : s.Follows { s with layerSets } :=
  ⟨fun all => ⟨all.entries, tidy all⟩, fun _ e found => ⟨e, found, .refl e⟩⟩

theorem of_modify {f : Entry → Entry} (tidy : ∀ e, s.entry? id = some e → e.Tidy → (f e).Tidy)
    (becomes : ∀ e, s.entry? id = some e → e.Becomes (f e)) : s.Follows (s.modify id f) := by
  refine ⟨fun all => ⟨fun other e found => ?_, all.layerSets⟩, fun other e found => ?_⟩
  · rw [entry?_modify] at found
    split at found
    · rename_i same
      obtain ⟨e', found', rfl⟩ := Option.map_eq_some_iff.1 found
      exact tidy e' (same ▸ found') (all.entries other e' found')
    · exact all.entries other e found
  · rw [entry?_modify, found]
    split
    · rename_i same
      exact ⟨f e, rfl, becomes e (same ▸ found)⟩
    · exact ⟨e, rfl, .refl e⟩

end Follows

/-! ## Giving up -/

theorem follows_dropBuffer (s : Store) (id : BufferId) : s.Follows (s.dropBuffer id).1 := by
  cases found : s.entry? id with
  | none =>
    have missing : s.entries[id.index]? = none := found
    rw [Store.dropBuffer, missing]
    exact .refl s
  | some e =>
    by_cases last : e.handles = 1
    · rw [dropBuffer_last found last]
      refine .of_modify (fun _ _ _ => ⟨rfl, fun _ => rfl⟩) fun e' found' =>
        ⟨fun alive => absurd alive (Nat.lt_irrefl 0), fun none => ?_⟩
      cases found.symm.trans found'
      omega
    · rw [dropBuffer_shared found last]
      refine .of_modify (fun e' found' tidy => ⟨tidy.1, fun none => tidy.2 ?_⟩)
        fun e' found' => ⟨fun _ => rfl, fun none => ?_⟩
      · cases found.symm.trans found'
        change e.handles - 1 = 0 at none
        omega
      · cases found.symm.trans found'
        rw [none]
        exact congrArg (Entry.mk e.buffer · e.lock e.pixels e.listeners) none.symm

theorem dropSet_tidy {set : LayerSet} (tidy : set.Tidy) : (dropSet set).1.Tidy := by
  unfold dropSet
  split
  · exact tidy
  · exact fun _ => rfl
  · exact nofun

theorem follows_dropLayers (s : Store) (set : LayerSetId) : s.Follows (s.dropLayers set).1 := by
  unfold Store.dropLayers
  split
  · exact .refl s
  · rename_i shared found
    refine .of_layerSets fun all other mem => ?_
    rcases List.mem_or_eq_of_mem_set mem with old | rfl
    · exact all.layerSets other old
    · exact dropSet_tidy (all.layerSets shared (List.mem_of_getElem? found))

theorem follows_perform (s : Store) (task : Task) : s.Follows (s.perform task).1 := by
  cases task with
  | dropBuffer id => exact s.follows_dropBuffer id
  | dropLayers set => exact s.follows_dropLayers set
  | tell listener id =>
    exact ⟨fun all => ⟨all.entries, all.layerSets⟩, fun _ e found => ⟨e, found, .refl e⟩⟩

theorem follows_settle (s : Store) (tasks : List Task) : s.Follows (s.settle tasks) := by
  fun_induction settle s tasks with
  | case1 s => exact .refl s
  | case2 s task rest ih => exact (s.follows_perform task).trans ih

/-! ## Taking -/

theorem follows_retain (alive : 0 < s.handles id) : s.Follows (s.retain id) := by
  refine .of_modify (fun e _ tidy => ⟨tidy.1, nofun⟩) fun e found => ⟨fun _ => rfl, fun none => ?_⟩
  rw [handles_eq found] at alive
  omega

theorem follows_retain_all {ids : List BufferId} (alive : ∀ id ∈ ids, 0 < s.handles id) :
    s.Follows (ids.foldl retain s) := by
  induction ids generalizing s with
  | nil => exact .refl s
  | cons id ids ih =>
    refine (follows_retain (alive id List.mem_cons_self)).trans (ih fun other later => ?_)
    have before := alive other (List.mem_cons_of_mem _ later)
    exact Nat.lt_of_lt_of_le before (s.handles_retain_le id other)

/-- Whatever changes in a layer set, one without owners has no layers to change. -/
theorem follows_modify_layerSets (s : Store) (i : Nat) {f : LayerSet → LayerSet}
    (tidy : ∀ set : LayerSet, set.Tidy → (f set).Tidy) :
    s.Follows { s with layerSets := s.layerSets.modify i f } := by
  refine .of_layerSets fun all set mem => ?_
  obtain ⟨j, found⟩ := List.mem_iff_getElem?.1 mem
  rw [List.getElem?_modify] at found
  obtain ⟨old, found', rfl⟩ := Option.map_eq_some_iff.1 found
  have before := all.layerSets old (List.mem_of_getElem? found')
  split
  · exact tidy old before
  · exact before

theorem follows_retainLayers_all (s : Store) (sets : List LayerSetId) :
    s.Follows (sets.foldl retainLayers s) := by
  induction sets generalizing s with
  | nil => exact .refl s
  | cons set sets ih =>
    have taken : s.Follows (s.retainLayers set) :=
      s.follows_modify_layerSets set.index fun _ _ none => nomatch none
    exact taken.trans (ih _)

theorem follows_mapLayers (s : Store) (set : LayerSetId) {f : List Layer → List Layer}
    (nothing : f [] = []) : s.Follows (s.mapLayers set f) := by
  refine s.follows_modify_layerSets set.index fun set tidy none => ?_
  change f set.layers = []
  rw [tidy none, nothing]

theorem follows_acquire (alive : ∀ id ∈ k.buffers, 0 < s.handles id) : s.Follows (s.acquire k) :=
  (follows_retain_all alive).trans (follows_retainLayers_all _ k.layers)

theorem follows_exchange {old : Holding} (alive : ∀ id ∈ k.buffers, 0 < s.handles id) :
    s.Follows (s.exchange old k) :=
  (follows_acquire alive).trans (follows_settle _ _)

/-! ## New buffers and layer sets -/

theorem follows_insert (s : Store) (width height : UInt32) (format : PixelFormat)
    (mappable : Bool) (pixels : Array UInt8) :
    s.Follows (s.insert width height format mappable pixels).2 := by
  have elsewhere (other : BufferId) (e : Entry) (found : s.entry? other = some e) :
      Store.entry? (s.insert width height format mappable pixels).2 other = some e := by
    refine (entry?_insert_of_ne ?_).trans found
    rintro rfl
    have missing : s.entry? ⟨s.entries.length⟩ = none := List.getElem?_eq_none (Nat.le_refl _)
    cases found.symm.trans missing
  refine ⟨fun all => ⟨fun other e found => ?_, all.layerSets⟩, fun other e found =>
    ⟨e, elsewhere other e found, .refl e⟩⟩
  by_cases new : other = ⟨s.entries.length⟩
  · subst new
    rw [insert, entry?, List.getElem?_concat_length] at found
    cases found
    exact ⟨rfl, fun none => absurd none Nat.one_ne_zero⟩
  · exact all.entries other e ((entry?_insert_of_ne new).symm.trans found)

theorem follows_insertLayers {layers : List Layer}
    (alive : ∀ id ∈ LayerSet.held ⟨layers, 1⟩, 0 < s.handles id) :
    s.Follows (s.insertLayers layers).2 := by
  refine (follows_retain_all alive).trans (.of_layerSets fun all set mem => ?_)
  rcases List.mem_append.1 mem with old | new
  · exact all.layerSets set old
  · rw [List.mem_singleton.1 new]
    exact nofun

end Store

end Compositor
