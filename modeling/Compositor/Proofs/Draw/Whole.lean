import Compositor.Proofs.Draw.Strokes
import Compositor.Proofs.Store.Remains

/-!
# Whole stores

In a whole store every buffer that is alive and can be mapped has the bytes of all its pixels, and
no lock is shared by no one. Taking and giving up handles keeps a store whole, since a buffer keeps
its bytes as long as it has handles; and so does writing as many bytes as there are.
In a whole store nothing that is drawn breaks off.
-/

namespace Compositor

/-- An entry has the number of its place; its pixels have all their bytes while someone can reach
them; and its lock counts readers only if there are any. -/
structure Entry.Whole (id : BufferId) (e : Entry) : Prop where
  number : e.buffer.id = id
  size : 0 < e.handles → e.buffer.mappable = true → e.pixels.size = e.buffer.size
  lock : e.lock ≠ .reading 0

namespace Store

def Whole (s : Store) : Prop := ∀ id e, s.entry? id = some e → e.Whole id

/-- The buffer is in the store, and alive. -/
def Has (s : Store) (b : Buffer) : Prop := s.buffer? b.id = some b ∧ 0 < s.handles b.id

instance (s : Store) (b : Buffer) : Decidable (s.Has b) := inferInstanceAs (Decidable (_ ∧ _))

/-- No buffer is added; each keeps its bytes as long as it has handles. -/
structure Stays (s s' : Store) : Prop where
  buffers : ∀ id, s'.buffer? id = s.buffer? id
  entries : ∀ id e, s.entry? id = some e → ∃ e', s'.entry? id = some e' ∧ e.Becomes e'

variable {s s' s'' : Store} {b : Buffer} {id : BufferId}

theorem Has.entry (has : s.Has b) : ∃ e, s.entry? b.id = some e ∧ e.buffer = b ∧ 0 < e.handles := by
  obtain ⟨known, alive⟩ := has
  obtain ⟨e, found, rfl⟩ := Option.map_eq_some_iff.1 known
  exact ⟨e, found, rfl, handles_eq found ▸ alive⟩

theorem buffer?_eq {e : Entry} (found : s.entry? id = some e) : s.buffer? id = some e.buffer := by
  simp [buffer?, found]

/-! ## Staying -/

namespace Stays

theorem refl (s : Store) : s.Stays s := ⟨fun _ => rfl, fun _ e found => ⟨e, found, .refl e⟩⟩

theorem trans (first : s.Stays s') (second : s'.Stays s'') : s.Stays s'' := by
  refine ⟨fun id => (second.buffers id).trans (first.buffers id), fun id e found => ?_⟩
  obtain ⟨e', found', becomes⟩ := first.entries id e found
  obtain ⟨e'', found'', becomes'⟩ := second.entries id e' found'
  exact ⟨e'', found'', becomes.trans becomes'⟩

theorem of_follows (follows : s.Follows s') (fixed : ∀ id, s'.fixed? id = s.fixed? id) :
    s.Stays s' :=
  ⟨fun id => buffer?_eq_of_fixed? (fixed id), follows.entries⟩

theorem of_modify {f : Entry → Entry} (same : ∀ e, (f e).buffer = e.buffer)
    (becomes : ∀ e, s.entry? id = some e → e.Becomes (f e)) : s.Stays (s.modify id f) := by
  refine ⟨fun other => s.buffer?_modify id other same, fun other e found => ?_⟩
  rw [entry?_modify, found]
  split
  · rename_i here
    exact ⟨f e, rfl, becomes e (here ▸ found)⟩
  · exact ⟨e, rfl, .refl e⟩

end Stays

theorem stays_settle (s : Store) (tasks : List Task) : s.Stays (s.settle tasks) :=
  .of_follows (s.follows_settle tasks) (s.fixed?_settle tasks)

/-- A change of a live entry that keeps its bytes and its handles. -/
theorem stays_modify {f : Entry → Entry} (alive : 0 < s.handles id)
    (same : ∀ e, (f e).buffer = e.buffer ∧ (f e).pixels = e.pixels) : s.Stays (s.modify id f) := by
  refine .of_modify (fun e => (same e).1) fun e found => ⟨fun _ => (same e).2, fun none => ?_⟩
  have := handles_eq found
  omega

theorem stays_retain (alive : 0 < s.handles id) : s.Stays (s.retain id) :=
  stays_modify alive fun _ => ⟨rfl, rfl⟩

theorem stays_retain_all {ids : List BufferId} (alive : ∀ id ∈ ids, 0 < s.handles id) :
    s.Stays (ids.foldl retain s) := by
  induction ids generalizing s with
  | nil => exact .refl s
  | cons id ids ih =>
    refine (stays_retain (alive id List.mem_cons_self)).trans (ih fun other later => ?_)
    have := s.handles_retain_le id other
    have := alive other (List.mem_cons_of_mem _ later)
    omega

theorem stays_listen {listener : Listener} (alive : 0 < s.handles id)
    (held : ∀ other ∈ listener.held, 0 < s.handles other) : s.Stays (s.listen id listener) := by
  have kept := s.handles_retain_all_le listener.held id
  exact (stays_retain_all held).trans (stays_modify (by omega) fun _ => ⟨rfl, rfl⟩)

theorem stays_openAccess {flags : AccessRights} {g : Guard} (alive : 0 < s.handles b.id)
    (opened : s.openAccess b flags = .ok (g, s')) : s.Stays s' := by
  obtain ⟨-, lock, -, rfl⟩ := openAccess_ok opened
  exact stays_modify alive fun _ => ⟨rfl, rfl⟩

theorem stays_closeAccess {g : Guard} (alive : 0 < s.handles g.buffer.id) :
    s.Stays (s.closeAccess g) := by
  have unlocked : s.Stays (s.modify g.buffer.id fun e => { e with lock := e.lock.release }) :=
    stays_modify alive fun _ => ⟨rfl, rfl⟩
  exact unlocked.trans (stays_settle _ _)

/-! ## Keeping a store whole -/

theorem whole_empty : empty.Whole := by
  intro id e found
  cases found

theorem lock_eq {e : Entry} (found : s.entry? id = some e) : s.lock id = e.lock := by
  simp [lock, found]

theorem Whole.lock (whole : s.Whole) (id : BufferId) : s.lock id ≠ .reading 0 := by
  cases found : s.entry? id with
  | none => simp [Store.lock, found]
  | some e => exact lock_eq found ▸ (whole id e found).lock

theorem Whole.stays (whole : s.Whole) (stays : s.Stays s') (locks : ∀ id, s'.lock id ≠ .reading 0) :
    s'.Whole := by
  intro id e' found'
  have same := stays.buffers id
  rw [buffer?_eq found'] at same
  obtain ⟨e, found, buffer⟩ := Option.map_eq_some_iff.1 same.symm
  obtain ⟨_, again, becomes⟩ := stays.entries id e found
  cases found'.symm.trans again
  obtain ⟨number, size, -⟩ := whole id e found
  refine ⟨buffer ▸ number, fun alive mappable => ?_, lock_eq found' ▸ locks id⟩
  have before : 0 < e.handles := by
    refine Nat.pos_of_ne_zero fun ended => ?_
    rw [becomes.2 ended] at alive
    omega
  rw [becomes.1 alive, size before (buffer ▸ mappable), buffer]

/-- The store knows a buffer that it made, and those that it knew before. -/
theorem buffer?_made {width height : UInt32} {format : PixelFormat} {mappable : Bool}
    {pixels : Array UInt8} (made : (b, s') = s.insert width height format mappable pixels) :
    s'.buffer? b.id = some b ∧
      ∀ id other, s.buffer? id = some other → s'.buffer? id = some other := by
  have after : s' = (s.insert width height format mappable pixels).2 := congrArg Prod.snd made
  have new : b = (s.insert width height format mappable pixels).1 := congrArg Prod.fst made
  refine ⟨by simp [new, after, Store.insert, buffer?, entry?], fun id other known => ?_⟩
  have apart : id ≠ ⟨s.entries.length⟩ := by
    rintro rfl
    simp [buffer?, entry?] at known
  rwa [buffer?, after, entry?_insert_of_ne apart]

theorem Whole.insert (whole : s.Whole) {width height : UInt32} {format : PixelFormat}
    {mappable : Bool} {pixels : Array UInt8} (size : mappable = true →
      pixels.size = width.toNat * height.toNat * PixelFormat.bytesPerPixel) :
    (s.insert width height format mappable pixels).2.Whole := by
  intro id e found
  by_cases new : id = ⟨s.entries.length⟩
  · subst new
    rw [Store.insert, entry?, List.getElem?_concat_length] at found
    cases found
    exact ⟨rfl, fun _ => size, Lock.noConfusion⟩
  · exact whole id e ((entry?_insert_of_ne new).symm.trans found)

/-- Writing as many bytes as there are. -/
theorem Whole.withPixels (whole : s.Whole) {bytes : Array UInt8}
    (size : bytes.size = (s.pixels id).size) : (s.withPixels id bytes).Whole := by
  intro other e found
  rw [entry?_withPixels] at found
  split at found
  · rename_i here
    subst here
    obtain ⟨old, found', rfl⟩ := Option.map_eq_some_iff.1 found
    obtain ⟨number, full, lock⟩ := whole other old found'
    refine ⟨number, fun alive mappable => ?_, lock⟩
    rw [Store.pixels, found'] at size
    exact size.trans (full alive mappable)
  · exact whole other e found

theorem buffer?_withPixels (s : Store) (id other : BufferId) (bytes : Array UInt8) :
    (s.withPixels id bytes).buffer? other = s.buffer? other :=
  s.buffer?_modify id other fun _ => rfl

theorem Balanced.withPixels {h : Holding} (balanced : s.Balanced h) (id : BufferId)
    (bytes : Array UInt8) : (s.withPixels id bytes).Balanced h :=
  balanced.modify id (fun _ => rfl) fun _ => rfl

theorem Whole.stored (whole : s.Whole) (has : s.Has b) (mappable : b.mappable = true) :
    s.Stored b := by
  obtain ⟨e, found, rfl, alive⟩ := has.entry
  exact ⟨e, found, alive, (whole _ e found).size alive mappable⟩

theorem Whole.readable (whole : s.Whole) (has : s.Has b) (granted : s.canRead b = true) :
    s.Readable b := by
  rw [canRead, Bool.and_eq_true] at granted
  obtain ⟨mappable, acquired⟩ := granted
  refine ⟨mappable, whole.stored has mappable, ?_⟩
  have counted := whole.lock b.id
  cases lock : s.lock b.id with
  | idle => exact .inl rfl
  | writing => simp [lock, Lock.acquire] at acquired
  | reading n =>
    cases n with
    | zero => exact absurd lock counted
    | succ n => exact .inr ⟨n, rfl⟩

/-! ## Opening for writing -/

variable {s₁ : Store} {g : Guard}

/-- Only a free buffer can be opened for writing. -/
theorem openAccess_write (opened : s.openAccess b .readWrite = .ok (g, s₁)) :
    b.mappable = true ∧ s.lock b.id = .idle ∧ g = ⟨b, .readWrite⟩ ∧
      s₁ = s.modify b.id fun e => { e with lock := .writing, handles := e.handles + 1 } := by
  obtain ⟨guard, lock, acquired, after⟩ := openAccess_ok opened
  have mappable := mappable_of_openAccess opened
  cases free : s.lock b.id with
  | idle =>
    rw [free] at acquired
    cases acquired
    exact ⟨mappable, rfl, guard, after⟩
  | reading n => simp [free, Lock.acquire, AccessRights.readWrite] at acquired
  | writing => simp [free, Lock.acquire, AccessRights.readWrite] at acquired

/-- The lock and the handle that an access for writing takes. -/
theorem counts_openAccess (has : s.Has b) (opened : s.openAccess b .readWrite = .ok (g, s₁))
    (id : BufferId) : s₁.lock id = (if id = b.id then .writing else s.lock id) ∧
      s₁.handles id = s.handles id + if id = b.id then 1 else 0 := by
  obtain ⟨-, -, -, rfl⟩ := openAccess_write opened
  obtain ⟨e, found, -, -⟩ := has.entry
  refine ⟨?_, handles_modify_add ⟨e, found⟩ id fun _ => rfl⟩
  rw [lock_modify, found]
  rfl

theorem Has.retain {b' : Buffer} (has : s.Has b') (alive : 0 < s.handles id) :
    (s.retain id).Has b' :=
  ⟨((stays_retain alive).buffers b'.id).trans has.1,
    Nat.lt_of_lt_of_le has.2 (s.handles_retain_le id b'.id)⟩

/-- Opening an access leaves all buffers where they are. -/
theorem Has.opened {b' : Buffer} (has : s.Has b') (target : s.Has b)
    (opened : s.openAccess b .readWrite = .ok (g, s₁)) : s₁.Has b' := by
  have count := (counts_openAccess target opened b'.id).2
  have alive := has.2
  exact ⟨((stays_openAccess target.2 opened).buffers b'.id).trans has.1, by omega⟩

end Store

/-! ## Drawing in a whole store -/

/-- The texture of a stroke is in the store, if it is a buffer. -/
def Stroke.Known (stroke : Stroke) (s : Store) : Prop :=
  ∀ d b, stroke = .texture d → d.texture = .stored b → s.Has b

theorem Stroke.Known.retain {stroke : Stroke} {s : Store} {id : BufferId}
    (known : stroke.Known s) (alive : 0 < s.handles id) : stroke.Known (s.retain id) :=
  fun d b texture stored => (known d b texture stored).retain alive

theorem Stroke.Known.opened {stroke : Stroke} {s s' : Store} {target : Buffer} {g : Guard}
    (known : stroke.Known s) (has : s.Has target)
    (opened : s.openAccess target .readWrite = .ok (g, s')) : stroke.Known s' :=
  fun d b texture stored => (known d b texture stored).opened has opened

/-- The pass holds its destination, alone and for writing. -/
structure Pass.Holds (p : Pass) (s : Store) : Prop where
  writable : p.target.flags.write = true
  mappable : p.target.buffer.mappable = true
  has : s.Has p.target.buffer
  locked : s.lock p.target.buffer.id = .writing

variable {s s' : Store} {p : Pass} {b : Buffer}

/-- A texture that is the destination is busy, so it is never read. -/
theorem Stroke.Known.safe {stroke : Stroke} (known : stroke.Known s) (whole : s.Whole)
    (holds : p.Holds s) : stroke.Safe s p.target.buffer.id := by
  intro d b texture stored granted
  have readable := whole.readable (known d b texture stored) granted
  refine ⟨fun same => ?_, readable⟩
  have locked := holds.locked
  rw [← same] at locked
  rcases readable.free with idle | ⟨n, reading⟩ <;> simp_all

/-- A pass that began on a buffer of a whole store holds it, and the store is still whole. -/
theorem Pass.Holds.of_openAccess (whole : s.Whole) (has : s.Has b)
    (opened : s.openAccess b .readWrite = .ok (p.target, s')) : p.Holds s' ∧ s'.Whole := by
  obtain ⟨mappable, -, target, -⟩ := Store.openAccess_write opened
  have counts (id : BufferId) := Store.counts_openAccess has opened id
  have stays := Store.stays_openAccess has.2 opened
  have buffer : p.target.buffer = b := congrArg Guard.buffer target
  refine ⟨⟨congrArg (·.flags.write) target, buffer ▸ mappable, ?_, ?_⟩, whole.stays stays ?_⟩
  · exact buffer ▸ has.opened has opened
  · rw [buffer, (counts b.id).1, if_pos rfl]
  · intro id
    rw [(counts id).1]
    split
    · nofun
    · exact whole.lock id

theorem Pass.Holds.ready (holds : p.Holds s) (whole : s.Whole) : p.Ready s :=
  ⟨holds.writable, whole.stored holds.has holds.mappable⟩

/-- In a whole store no stroke breaks off, and all that changes are bytes of the destination. -/
theorem Pass.Holds.strokes {α : Type} [Scalar α] [LawfulScalar α] {σ : Session}
    (holds : p.Holds σ.store) (whole : σ.store.Whole) {strokes : List Stroke}
    (known : ∀ stroke ∈ strokes, stroke.Known σ.store) :
    ∃ p' stats σ', p.strokes α strokes σ = .ok (p', stats) σ' ∧ p'.target = p.target ∧
      p.Inked (fun q => strokes.flatMap (·.laid α σ.store p.bounds q)) σ.store σ'.store :=
  Pass.strokes_laid (holds.ready whole) fun stroke mem => (known stroke mem).safe whole holds

end Compositor
