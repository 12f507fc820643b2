import Compositor.Proofs.Store.Balance

/-!
# What store operations do to a balance

Each operation moves a fixed holding in or out, and keeps the entries of all buffers that are held
throughout. A handle can be copied only from one that is there.
-/

namespace Compositor.Store

variable {s : Store} {h k : Holding} {id other : BufferId}

/-! ## Changes of one entry -/

theorem ext_entry? {s s' : Store} (entries : ∀ id, s'.entry? id = s.entry? id)
    (layerSets : s'.layerSets = s.layerSets) (notices : s'.notices = s.notices) : s' = s := by
  obtain ⟨l, sets, told⟩ := s
  obtain ⟨l', sets', told'⟩ := s'
  cases layerSets
  cases notices
  have same : l' = l := List.ext_getElem? fun i => entries ⟨i⟩
  rw [same]

theorem entry?_modify (s : Store) (id other : BufferId) (f : Entry → Entry) :
    Store.entry? (s.modify id f) other =
      if other = id then (s.entry? other).map f else s.entry? other := by
  simp only [modify, entry?, List.getElem?_modify]
  by_cases same : other = id
  · subst same
    simp
  · have apart : id.index ≠ other.index := fun h => same (BufferId.index_inj.1 h.symm)
    simp [same, apart]

theorem modify_eq_set {s : Store} {id : BufferId} {e : Entry} (found : s.entry? id = some e)
    (f : Entry → Entry) : s.modify id f = { s with entries := s.entries.set id.index (f e) } := by
  obtain ⟨bound, rfl⟩ := List.getElem?_eq_some_iff.1 (show s.entries[id.index]? = some e from found)
  have same : s.entries.modify id.index f = s.entries.set id.index (f s.entries[id.index]) := by
    refine List.ext_getElem? fun i => ?_
    rw [List.getElem?_modify, List.getElem?_set]
    by_cases here : id.index = i
    · subst here
      simp [bound]
    · simp [here]
  rw [modify, same]

theorem flatMap_modify {α β : Type} {f : α → List β} {g : α → α} (same : ∀ a, f (g a) = f a)
    (l : List α) (i : Nat) : (l.modify i g).flatMap f = l.flatMap f := by
  induction l generalizing i with
  | nil => rw [List.modify_nil]
  | cons a l ih =>
    cases i with
    | zero => simp [same]
    | succ i => simp [ih]

theorem inner_modify (s : Store) (id : BufferId) {f : Entry → Entry}
    (held : ∀ e, (f e).listeners = e.listeners) : (s.modify id f).inner = s.inner := by
  have same (e : Entry) : (f e).held = e.held := by
    unfold Entry.held
    rw [held]
  simp only [inner, modify, flatMap_modify same]

theorem handles_modify (s : Store) (id other : BufferId) {f : Entry → Entry}
    (count : ∀ e, (f e).handles = e.handles) : (s.modify id f).handles other = s.handles other := by
  simp only [handles, entry?_modify]
  split
  · cases s.entry? other <;> simp [count]
  · rfl

/-- A change that leaves handles and listeners alone does not touch the balance. -/
theorem Balanced.modify (balanced : s.Balanced h) (id : BufferId) {f : Entry → Entry}
    (count : ∀ e, (f e).handles = e.handles) (held : ∀ e, (f e).listeners = e.listeners) :
    (s.modify id f).Balanced h :=
  ⟨fun other => by rw [handles_modify s id other count, inner_modify s id held]
                   exact balanced.handles other, balanced.owners⟩

theorem exists_entry (balanced : s.Balanced h) (mem : id ∈ h.buffers) :
    ∃ e, s.entry? id = some e := by
  obtain ⟨e, found, -⟩ := entry?_isSome_of_handles (handles_pos balanced mem)
  exact ⟨e, found⟩

theorem handles_modify_add (exist : ∃ e, s.entry? id = some e) (other : BufferId)
    {f : Entry → Entry} (count : ∀ e, (f e).handles = e.handles + 1) :
    (s.modify id f).handles other = s.handles other + if other = id then 1 else 0 := by
  obtain ⟨e, found⟩ := exist
  simp only [handles, entry?_modify]
  by_cases same : other = id
  · subst same
    simp [found, count]
  · simp [same]

/-- A change of an entry that adds one handle and leaves the listeners alone. -/
theorem Balanced.modify_add (balanced : s.Balanced h) (exist : ∃ e, s.entry? id = some e)
    {f : Entry → Entry} (count : ∀ e, (f e).handles = e.handles + 1)
    (held : ∀ e, (f e).listeners = e.listeners) :
    (s.modify id f).Balanced (.single id ++ h) := by
  refine ⟨fun other => ?_, balanced.owners⟩
  rw [handles_modify_add exist other count, inner_modify s id held, balanced.handles other]
  simp only [Holding.buffers_single, Holding.buffers_append, List.cons_append, List.nil_append,
    List.count_cons, beq_iff_eq]
  grind

theorem Keeps.of_modify (id other : BufferId) {f : Entry → Entry}
    (same : other = id → ∀ e, f e = { e with handles := (f e).handles }) :
    s.Keeps (s.modify id f) other := by
  by_cases equal : other = id
  · subst equal
    cases found : s.entry? other with
    | none => exact .of_eq (by simp [entry?_modify, found])
    | some e => exact ⟨(f e).handles, by simp [entry?_modify, found, ← same rfl e]⟩
  · exact .of_eq (by simp [entry?_modify, equal])

/-! ## Handles -/

theorem Balanced.retain (balanced : s.Balanced h) (mem : id ∈ h.buffers) :
    (s.retain id).Balanced (.single id ++ h) :=
  balanced.modify_add (exists_entry balanced mem) (fun _ => rfl) fun _ => rfl

theorem keeps_retain (s : Store) (id other : BufferId) : s.Keeps (s.retain id) other :=
  .of_modify id other fun _ _ => rfl

theorem Balanced.retain_all (balanced : s.Balanced h) {ids : List BufferId}
    (mem : ∀ id ∈ ids, id ∈ h.buffers) :
    (ids.foldl Store.retain s).Balanced (⟨ids, []⟩ ++ h) := by
  induction ids generalizing s h with
  | nil => exact balanced
  | cons id ids ih =>
    have first := balanced.retain (mem id List.mem_cons_self)
    refine (ih first fun other later => ?_).congr (fun other => ?_) fun _ => rfl
    · exact List.mem_cons_of_mem _ (mem other (List.mem_cons_of_mem _ later))
    · simp [Holding.buffers_single, List.count_cons]
      omega

theorem keeps_retain_all (s : Store) (ids : List BufferId) (other : BufferId) :
    s.Keeps (ids.foldl Store.retain s) other := by
  induction ids generalizing s with
  | nil => exact .refl s other
  | cons id ids ih => exact (keeps_retain s id other).trans (ih _)

theorem Balanced.retainLayers {set : LayerSetId} (balanced : s.Balanced h) (mem : set ∈ h.layers) :
    (s.retainLayers set).Balanced (⟨[], [set]⟩ ++ h) := by
  have held (set : LayerSet) : ({ set with owners := set.owners + 1 } : LayerSet).held = set.held :=
    rfl
  constructor
  · intro other
    have count := balanced.handles other
    simp only [inner, Store.retainLayers, flatMap_modify held]
    exact count
  · intro other
    have count := balanced.owners other
    have positive := List.count_pos_iff.2 mem
    have count' := balanced.owners set
    simp only [Store.owners, Store.retainLayers, List.getElem?_modify, Holding.layers_append,
      List.cons_append, List.nil_append, List.count_cons, beq_iff_eq] at count count' ⊢
    by_cases same : set = other
    · subst same
      cases found : s.layerSets[set.index]? with
      | none => simp [found] at count'; omega
      | some e => simp [found] at count ⊢; omega
    · have apart : set.index ≠ other.index := fun h => same (LayerSetId.index_inj.1 h)
      simpa [same, apart] using count

theorem Balanced.retainLayers_all (balanced : s.Balanced h) {sets : List LayerSetId}
    (mem : ∀ set ∈ sets, set ∈ h.layers) :
    (sets.foldl Store.retainLayers s).Balanced (⟨[], sets⟩ ++ h) := by
  induction sets generalizing s h with
  | nil => exact balanced
  | cons set sets ih =>
    have first := balanced.retainLayers (mem set List.mem_cons_self)
    refine (ih first fun other later => ?_).congr (fun _ => rfl) fun other => ?_
    · exact List.mem_cons_of_mem _ (mem other (List.mem_cons_of_mem _ later))
    · simp [List.count_cons]
      omega

theorem keeps_retainLayers_all (s : Store) (sets : List LayerSetId) (other : BufferId) :
    s.Keeps (sets.foldl Store.retainLayers s) other := by
  induction sets generalizing s with
  | nil => exact .refl s other
  | cons set sets ih =>
    have first : s.Keeps (s.retainLayers set) other := .of_eq rfl
    exact first.trans (ih _)

/-- Every handle that is taken must be there to be copied. -/
theorem Balanced.acquire (balanced : s.Balanced h) (buffers : ∀ id ∈ k.buffers, id ∈ h.buffers)
    (layers : ∀ id ∈ k.layers, id ∈ h.layers) : (s.acquire k).Balanced (k ++ h) := by
  have both := (balanced.retain_all buffers).retainLayers_all layers
  exact both.congr (by simp) (by simp)

theorem keeps_acquire (s : Store) (k : Holding) (other : BufferId) :
    s.Keeps (s.acquire k) other :=
  (keeps_retain_all s k.buffers other).trans (keeps_retainLayers_all _ k.layers other)

theorem holdings_dispose (k : Holding) :
    Task.holdings (k.buffers.map .dropBuffer ++ k.layers.map .dropLayers) = k := by
  rw [Task.holdings_append, Task.holdings_dropBuffers, Task.holdings_dropLayers]
  change (⟨k.buffers ++ [], k.layers⟩ : Holding) = k
  rw [List.append_nil]

theorem Balanced.dispose (balanced : s.Balanced (k ++ h)) : (s.dispose k).Balanced h :=
  Balanced.settle (by rwa [holdings_dispose])

theorem Balanced.keeps_dispose (balanced : s.Balanced (k ++ h)) (mem : id ∈ h.buffers) :
    s.Keeps (s.dispose k) id :=
  Balanced.keeps_settle (by rwa [holdings_dispose]) mem

theorem Balanced.release (balanced : s.Balanced (.single id ++ h)) : (s.release id).Balanced h :=
  Balanced.settle balanced

theorem Balanced.keeps_release (balanced : s.Balanced (.single id ++ h))
    (mem : other ∈ h.buffers) : s.Keeps (s.release id) other :=
  Balanced.keeps_settle balanced mem

/-- The new handles are taken before the old ones are given up. -/
theorem Balanced.exchange {new : Holding} (balanced : s.Balanced (k ++ h))
    (buffers : ∀ id ∈ new.buffers, id ∈ (k ++ h).buffers)
    (layers : ∀ id ∈ new.layers, id ∈ (k ++ h).layers) :
    (s.exchange k new).Balanced (new ++ h) := by
  exact (balanced.acquire buffers layers).left_comm.dispose

theorem Balanced.keeps_exchange {new : Holding} (balanced : s.Balanced (k ++ h))
    (buffers : ∀ id ∈ new.buffers, id ∈ (k ++ h).buffers)
    (layers : ∀ id ∈ new.layers, id ∈ (k ++ h).layers) (mem : id ∈ h.buffers) :
    s.Keeps (s.exchange k new) id := by
  have taken := (balanced.acquire buffers layers).left_comm
  exact (keeps_acquire s new id).trans (taken.keeps_dispose (List.mem_append_right _ mem))

/-- What a listener holds is held by the listener from then on. -/
theorem Balanced.listen {listener : Listener} (balanced : s.Balanced h) (mem : id ∈ h.buffers)
    (held : ∀ other ∈ listener.held, other ∈ h.buffers) : (s.listen id listener).Balanced h := by
  have taken := balanced.retain_all held
  obtain ⟨e, found⟩ := exists_entry taken (List.mem_append_right _ mem)
  refine ⟨fun other => ?_, taken.owners⟩
  have count := taken.handles other
  have moved := count_flatMap_set Entry.held other
    { e with listeners := e.listeners ++ [listener] } found
  have more : Entry.held { e with listeners := e.listeners ++ [listener] } =
      e.held ++ listener.held := by
    simp [Entry.held]
  have same : (s.listen id listener).handles other =
      (listener.held.foldl Store.retain s).handles other :=
    handles_modify _ id other fun _ => rfl
  rw [more, List.count_append] at moved
  rw [same, count, Store.listen, modify_eq_set found]
  simp only [Holding.buffers_append, inner, List.count_append]
  omega

/-! ## New buffers -/

theorem byteCount_ok {width height : UInt32} {count : Nat}
    (h : Buffer.byteCount width height = .ok count) :
    count = width.toNat * height.toNat * PixelFormat.bytesPerPixel := by
  unfold Buffer.byteCount Word.mul at h
  split at h
  · exact (Except.ok.inj h).symm
  · cases h

theorem byteCount_fits {width height : UInt32} {count : Nat}
    (h : Buffer.byteCount width height = .ok count) :
    width.toNat * height.toNat * PixelFormat.bytesPerPixel < Word.limit := by
  unfold Buffer.byteCount Word.mul at h
  split at h
  · assumption
  · cases h

/-- A buffer that was made has the bytes that its pixels take. -/
theorem create_ok {width height : UInt32} {format : PixelFormat} {b : Buffer} {s' : Store}
    (h : s.create width height format = .ok (b, s')) :
    ∃ pixels, pixels.size = width.toNat * height.toNat * PixelFormat.bytesPerPixel ∧
      (b, s') = s.insert width height format true pixels := by
  unfold create at h
  cases counted : Buffer.byteCount width height with
  | error fault =>
    rw [counted] at h
    cases h
  | ok count =>
    rw [counted] at h
    change (if capacity < count then _ else _) = _ at h
    split at h
    · cases h
    · refine ⟨Array.replicate count 0, ?_, (Except.ok.inj h).symm⟩
      rw [Array.size_replicate, byteCount_ok counted]

theorem createFrom_ok {width height : UInt32} {format : PixelFormat} {pixels : Array UInt8}
    {b : Buffer} {s' : Store} (h : s.createFrom width height format pixels = .ok (b, s')) :
    pixels.size = width.toNat * height.toNat * PixelFormat.bytesPerPixel ∧
      (b, s') = s.insert width height format true pixels := by
  unfold createFrom at h
  cases counted : Buffer.byteCount width height with
  | error fault =>
    rw [counted] at h
    cases h
  | ok count =>
    rw [counted] at h
    change (if pixels.size ≠ count then _ else _) = _ at h
    split at h
    · cases h
    · rename_i fits
      rw [byteCount_ok counted] at fits
      exact ⟨Decidable.not_not.1 fits, (Except.ok.inj h).symm⟩

/-- Only buffers are made whose bytes can be counted in a word. -/
theorem create_fits {width height : UInt32} {format : PixelFormat} {made : Buffer × Store}
    (h : s.create width height format = .ok made) :
    width.toNat * height.toNat * PixelFormat.bytesPerPixel < Word.limit := by
  unfold create at h
  cases counted : Buffer.byteCount width height with
  | error fault =>
    rw [counted] at h
    cases h
  | ok count => exact byteCount_fits counted

theorem createFrom_fits {width height : UInt32} {format : PixelFormat} {pixels : Array UInt8}
    {made : Buffer × Store} (h : s.createFrom width height format pixels = .ok made) :
    width.toNat * height.toNat * PixelFormat.bytesPerPixel < Word.limit := by
  unfold createFrom at h
  cases counted : Buffer.byteCount width height with
  | error fault =>
    rw [counted] at h
    cases h
  | ok count => exact byteCount_fits counted

theorem handles_fresh (s : Store) : s.handles ⟨s.entries.length⟩ = 0 := by
  simp [handles, entry?]

theorem entry?_insert_of_ne {width height : UInt32} {format : PixelFormat} {mappable : Bool}
    {pixels : Array UInt8} (apart : other ≠ ⟨s.entries.length⟩) :
    Store.entry? (s.insert width height format mappable pixels).2 other = s.entry? other := by
  have apart' : other.index ≠ s.entries.length := fun h => apart (BufferId.index_inj.1 h)
  simp only [insert, entry?, List.getElem?_append]
  split
  · rfl
  · rename_i beyond
    rw [List.getElem?_eq_none (Nat.le_of_not_lt beyond), List.getElem?_eq_none]
    rw [List.length_singleton]
    omega

theorem Balanced.insert (balanced : s.Balanced h) (width height : UInt32) (format : PixelFormat)
    (mappable : Bool) (pixels : Array UInt8) :
    (s.insert width height format mappable pixels).2.Balanced
      (.single ⟨s.entries.length⟩ ++ h) := by
  refine ⟨fun other => ?_, balanced.owners⟩
  have count := balanced.handles other
  have inner : (s.insert width height format mappable pixels).2.inner = s.inner := by
    simp [Store.inner, Store.insert, Entry.held]
  simp only [inner, Holding.buffers_single, Holding.buffers_append, List.cons_append,
    List.nil_append, List.count_cons, beq_iff_eq]
  by_cases same : other = ⟨s.entries.length⟩
  · subst same
    rw [handles_fresh] at count
    simp [Store.handles, Store.insert, entry?]
    omega
  · simp only [Store.handles, entry?_insert_of_ne same, Ne.symm same, ↓reduceIte] at count ⊢
    exact count

/-- A new layer set has one owner, and holds the buffers that it shows. -/
theorem Balanced.insertLayers (balanced : s.Balanced h) {layers : List Layer}
    (mem : ∀ id ∈ LayerSet.held ⟨layers, 1⟩, id ∈ h.buffers) :
    (s.insertLayers layers).2.Balanced (⟨[], [(s.insertLayers layers).1]⟩ ++ h) := by
  have taken := balanced.retain_all mem
  simp only [Store.insertLayers]
  generalize (LayerSet.held ⟨layers, 1⟩).foldl Store.retain s = t at taken
  constructor
  · intro other
    have count := taken.handles other
    simp only [Holding.buffers_append, List.nil_append, List.count_append, inner,
      List.flatMap_append, List.flatMap_singleton] at count ⊢
    have same : Store.handles { t with layerSets := t.layerSets ++ [⟨layers, 1⟩] } other =
      t.handles other := rfl
    omega
  · intro other
    have count := taken.owners other
    simp only [Holding.layers_append, List.cons_append, List.nil_append, List.count_cons,
      Store.owners, beq_iff_eq] at count ⊢
    by_cases new : other = ⟨t.layerSets.length⟩
    · subst new
      simp at count ⊢
      omega
    · have apart : other.index ≠ t.layerSets.length := fun h => new (LayerSetId.index_inj.1 h)
      have same : (t.layerSets ++ [⟨layers, 1⟩])[other.index]? = t.layerSets[other.index]? := by
        grind
      rw [same, count, if_neg (Ne.symm new)]
      rfl

/-! ## Access -/

/-- The store while an access is open. -/
theorem openAccess_ok {b : Buffer} {flags : AccessRights} {guard : Guard} {s' : Store}
    (h : s.openAccess b flags = .ok (guard, s')) :
    guard = ⟨b, flags⟩ ∧ ∃ lock, (s.lock b.id).acquire flags.write = some lock ∧
      s' = s.modify b.id fun e => { e with lock, handles := e.handles + 1 } := by
  unfold openAccess at h
  split at h
  · split at h
    · rename_i lock acquired
      simp only [Except.ok.injEq, Prod.mk.injEq] at h
      exact ⟨h.1.symm, lock, acquired, h.2.symm⟩
    · cases h
  · cases h

theorem mappable_of_openAccess {b : Buffer} {flags : AccessRights} {guard : Guard} {s' : Store}
    (h : s.openAccess b flags = .ok (guard, s')) : b.mappable = true := by
  unfold openAccess at h
  split at h
  · assumption
  · cases h

theorem Balanced.openAccess {b : Buffer} {flags : AccessRights} {guard : Guard} {s' : Store}
    (balanced : s.Balanced h) (exist : ∃ e, s.entry? b.id = some e)
    (opened : s.openAccess b flags = .ok (guard, s')) : s'.Balanced (.single b.id ++ h) := by
  obtain ⟨-, lock, -, rfl⟩ := openAccess_ok opened
  exact balanced.modify_add exist (fun _ => rfl) fun _ => rfl

theorem Balanced.closeAccess {guard : Guard}
    (balanced : s.Balanced (.single guard.buffer.id ++ h)) : (s.closeAccess guard).Balanced h :=
  Balanced.release (balanced.modify guard.buffer.id (fun _ => rfl) fun _ => rfl)

theorem update_ok {guard : Guard} {f : Array UInt8 → Except Fault (Array UInt8)} {s' : Store}
    (h : s.update guard f = .ok s') :
    ∃ bytes, f (s.read guard) = .ok bytes ∧
      s' = s.modify guard.buffer.id ({ · with pixels := bytes }) := by
  unfold update at h
  split at h
  · cases result : f (s.read guard) with
    | error fault =>
      rw [result] at h
      cases h
    | ok bytes =>
      rw [result] at h
      cases h
      exact ⟨bytes, rfl, rfl⟩
  · cases h

end Compositor.Store
