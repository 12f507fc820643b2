import Compositor.Proofs.Draw.Whole
import Compositor.Proofs.Store.Locks
import Mathlib.Data.List.Nodup
import Mathlib.Data.List.Perm.Basic

/-!
# Programs that draw

A program that uses buffers also draws: it begins passes on buffers that it owns, does strokes in
any of the passes that are open, writes through the guards in its hands, and ends passes, in any
order. At every time the store is whole, a buffer that the program can name is the one that the
store knows, and every open pass holds its destination alone. So a call writes through one guard
that is alive, and only the bytes of that guard's buffer change; or it writes nothing, and then each
buffer keeps its bytes as long as it has handles.
-/

namespace Compositor

/-! ## While nobody writes -/

namespace Store

/-- Nobody writes: a buffer stays known, and keeps its bytes as long as it has handles. The bytes
of a new buffer can be counted in a word. -/
structure Ages (s s' : Store) : Prop where
  buffers : ∀ id b, s.buffer? id = some b → s'.buffer? id = some b
  made : ∀ id b, s'.buffer? id = some b →
    s.buffer? id = some b ∨ (b.mappable = true → b.size < Word.limit)
  entries : ∀ id e, s.entry? id = some e → ∃ e', s'.entry? id = some e' ∧ e.Becomes e'

variable {s s' : Store} {b : Buffer} {id : BufferId}

theorem Stays.ages (stays : s.Stays s') : s.Ages s' :=
  ⟨fun id _ known => (stays.buffers id).trans known,
    fun id _ known => .inl ((stays.buffers id).symm.trans known), stays.entries⟩

theorem Ages.refl (s : Store) : s.Ages s := (Stays.refl s).ages

theorem ages_insert {width height : UInt32} {format : PixelFormat} {mappable : Bool}
    {pixels : Array UInt8} (made : (b, s') = s.insert width height format mappable pixels)
    (fits : mappable = true →
      width.toNat * height.toNat * PixelFormat.bytesPerPixel < Word.limit) : s.Ages s' := by
  obtain ⟨new, before⟩ := buffer?_made made
  have after : s' = (s.insert width height format mappable pixels).2 := congrArg Prod.snd made
  obtain ⟨rfl, -⟩ := Prod.mk.inj made
  refine ⟨before, fun id b known => ?_,
    after ▸ (s.follows_insert width height format mappable pixels).entries⟩
  by_cases here : id = ⟨s.entries.length⟩
  · subst here
    cases new.symm.trans known
    exact .inr fits
  · rw [buffer?, after, entry?_insert_of_ne here] at known
    exact .inl known

/-- The bytes of every buffer that can be mapped can be counted in a word. -/
def Sized (s : Store) : Prop :=
  ∀ id b, s.buffer? id = some b → b.mappable = true → b.size < Word.limit

theorem Ages.sized (ages : s.Ages s') (sized : s.Sized) : s'.Sized :=
  fun id b known => (ages.made id b known).elim (sized id b) fun fits => fits

/-- A buffer that is alive before and after has kept its bytes. -/
theorem Ages.pixels (ages : s.Ages s') (before : 0 < s.handles id) (after : 0 < s'.handles id) :
    s'.pixels id = s.pixels id := by
  obtain ⟨e, found, -⟩ := entry?_isSome_of_handles before
  obtain ⟨e', found', becomes⟩ := ages.entries id e found
  rw [handles_eq found'] at after
  simp only [Store.pixels, found, found', Option.map_some, Option.getD_some]
  exact becomes.1 after

/-- A buffer that has ended does not come back. -/
theorem Ages.alive (ages : s.Ages s') (known : (s.entry? id).isSome) (after : 0 < s'.handles id) :
    0 < s.handles id := by
  obtain ⟨e, found⟩ := Option.isSome_iff_exists.1 known
  obtain ⟨e', found', becomes⟩ := ages.entries id e found
  rw [handles_eq found'] at after
  rw [handles_eq found]
  refine Nat.pos_of_ne_zero fun ended => ?_
  rw [becomes.2 ended] at after
  omega

theorem Ages.known (ages : s.Ages s') (known : (s.entry? id).isSome) : (s'.entry? id).isSome := by
  obtain ⟨e, found⟩ := Option.isSome_iff_exists.1 known
  obtain ⟨e', found', -⟩ := ages.entries id e found
  simp [found']

end Store

/-! ## Programs with a whole store -/

namespace Client

/-- A buffer that the program can name, if only through a handle that keeps nothing alive. -/
def Names (c : Client) (b : Buffer) : Prop := c.Owns b ∨ b ∈ c.weak

/-- Handles and guards come and go, but no buffer is made and nothing is written. -/
structure Shares (c c' : Client) : Prop where
  stays : c.store.Stays c'.store
  named : ∀ b, c'.Names b → c.Names b
  mapped : ∀ g ∈ c'.guards, g ∈ c.guards ∨ g.buffer.mappable = true

theorem Shares.refl (c : Client) : c.Shares c := ⟨.refl _, fun _ => id, fun _ => .inl⟩

/-- A new buffer is kept, which has the bytes of all its pixels. -/
inductive Makes (c : Client) : Client → Prop
  | made {width height : UInt32} {format : PixelFormat} {mappable : Bool} {pixels : Array UInt8}
      (b : Buffer) (store : Store) : (mappable = true →
        pixels.size = width.toNat * height.toNat * PixelFormat.bytesPerPixel) →
      (mappable = true → width.toNat * height.toNat * PixelFormat.bytesPerPixel < Word.limit) →
      (b, store) = c.store.insert width height format mappable pixels →
    Makes c { c with store, handles := b :: c.handles }

/-- What holds of a program at every time. -/
structure Sound (c : Client) : Prop where
  balanced : c.store.Balanced c.holding
  locked : c.Locked
  whole : c.store.Whole
  known : ∀ b, c.Names b → c.store.buffer? b.id = some b
  mapped : ∀ g ∈ c.guards, g.buffer.mappable = true

theorem sound_start : start.Sound where
  balanced := Store.balanced_empty
  locked _ := rfl
  whole := Store.whole_empty
  known b named := by simp [Names, Owns, start] at named
  mapped := nofun

theorem Locked.ne_reading_zero {c : Client} (locked : c.Locked) (id : BufferId) :
    c.store.lock id ≠ .reading 0 := by
  intro none
  obtain ⟨positive, -⟩ := ((locked id).eq_reading_iff 0).1 none
  omega

/-- A guard that may write is the only one of its buffer. -/
theorem Locked.writer {c : Client} (locked : c.Locked) {g : Guard} (mem : g ∈ c.guards)
    (writes : g.flags.write = true) :
    c.store.lock g.buffer.id = .writing ∧ ∀ g' ∈ c.guards, g'.buffer.id = g.buffer.id → g' = g := by
  have here : g ∈ c.guardsOf g.buffer.id := List.mem_filter.2 ⟨mem, by simp⟩
  have stands := locked g.buffer.id
  cases lock : c.store.lock g.buffer.id with
  | idle =>
    have none := stands.eq_idle_iff.1 lock
    grind
  | reading n =>
    obtain ⟨-, -, readers⟩ := (stands.eq_reading_iff n).1 lock
    have := readers g here
    grind
  | writing =>
    obtain ⟨writer, alone, -⟩ := stands.eq_writing_iff.1 lock
    refine ⟨rfl, fun g' mem' same => ?_⟩
    have there : g' ∈ c.guardsOf g.buffer.id := List.mem_filter.2 ⟨mem', by simpa using same⟩
    grind

namespace Sound

variable {c c' : Client} {b : Buffer} {id : BufferId}

theorem alive (sound : c.Sound) (mem : id ∈ c.held) : 0 < c.store.handles id :=
  Store.handles_pos sound.balanced mem

theorem has (sound : c.Sound) (owns : c.Owns b) : c.store.Has b :=
  ⟨sound.known b (.inl owns), sound.alive owns.mem_held⟩

theorem of_shares (sound : c.Sound) (shares : c.Shares c')
    (balanced : c'.store.Balanced c'.holding) (locked : c'.Locked) :
    c'.Sound ∧ c.store.Ages c'.store where
  left :=
    { balanced, locked
      whole := sound.whole.stays shares.stays locked.ne_reading_zero
      known := fun b named =>
        (shares.stays.buffers b.id).trans (sound.known b (shares.named b named))
      mapped := fun g mem => (shares.mapped g mem).elim (sound.mapped g) id }
  right := shares.stays.ages

theorem of_makes (sound : c.Sound) (makes : c.Makes c')
    (balanced : c'.store.Balanced c'.holding) (locked : c'.Locked) :
    c'.Sound ∧ c.store.Ages c'.store := by
  obtain ⟨b, s, size, fits, inserted⟩ := makes
  obtain ⟨new, before⟩ := Store.buffer?_made inserted
  refine ⟨⟨balanced, locked, ?_, fun b' named => ?_, sound.mapped⟩,
    Store.ages_insert inserted fits⟩
  · obtain ⟨-, rfl⟩ := Prod.mk.inj inserted
    exact sound.whole.insert size
  · by_cases same : b' = b
    · exact same ▸ new
    · refine before b'.id b' (sound.known b' ?_)
      simpa [Names, Owns, same] using named

/-- Writing as many bytes as there are. -/
theorem withPixels (sound : c.Sound) (id : BufferId) {bytes : Array UInt8}
    (size : bytes.size = (c.store.pixels id).size) :
    Sound { c with store := c.store.withPixels id bytes } where
  balanced := sound.balanced.withPixels id bytes
  locked := sound.locked.of_fixed? rfl fun other =>
    c.store.fixed?_modify id other fun _ => ⟨rfl, rfl⟩
  whole := sound.whole.withPixels size
  known b named := (c.store.buffer?_withPixels id b.id bytes).trans (sound.known b named)
  mapped := sound.mapped

theorem keep_cases {result : Except Fault (Buffer × Store)}
    (shape : ∀ b s, result = .ok (b, s) →
      c.Makes { c with store := s, handles := b :: c.handles }) :
    c.Shares (c.keep result) ∨ c.Makes (c.keep result) := by
  cases result with
  | error fault => exact .inl (.refl c)
  | ok new => exact .inr (shape new.1 new.2 rfl)

theorem step_cases (sound : c.Sound) (call : BufferCall) :
    c.Shares (c.step call) ∨ c.Makes (c.step call) := by
  cases call with
  | create width height format =>
    refine keep_cases fun b s made => ?_
    obtain ⟨pixels, size, inserted⟩ := Store.create_ok made
    exact .made b s (fun _ => size) (fun _ => Store.create_fits made) inserted
  | createFrom width height format pixels =>
    refine keep_cases fun b s made => ?_
    obtain ⟨size, inserted⟩ := Store.createFrom_ok made
    exact .made b s (fun _ => size) (fun _ => Store.createFrom_fits made) inserted
  | createUnmappable width height format =>
    exact .inr (.made _ _ (fun never => absurd never Bool.false_ne_true)
      (fun never => absurd never Bool.false_ne_true) rfl)
  | clone b =>
    simp only [Client.step]
    split
    · rename_i owns
      refine .inl
        ⟨Store.stays_retain (sound.alive owns.mem_held), fun b' named => ?_, fun g => .inl⟩
      grind [Names, Owns]
    · exact .inl (.refl c)
  | drop b =>
    simp only [Client.step]
    split
    · refine .inl ⟨Store.stays_settle _ _, fun b' named => ?_, fun g => .inl⟩
      exact named.imp_left (.imp_left List.mem_of_mem_erase)
    · exact .inl (.refl c)
  | downgrade b =>
    simp only [Client.step]
    split
    · refine .inl ⟨.refl _, fun b' named => ?_, fun g => .inl⟩
      grind [Names, Owns]
    · exact .inl (.refl c)
  | cloneWeak b =>
    simp only [Client.step]
    split
    · refine .inl ⟨.refl _, fun b' named => ?_, fun g => .inl⟩
      grind [Names, Owns]
    · exact .inl (.refl c)
  | dropWeak b =>
    exact .inl ⟨.refl _, fun b' named => named.imp_right List.mem_of_mem_erase, fun g => .inl⟩
  | upgrade b =>
    simp only [Client.step, Store.retain?, Store.isAlive]
    split
    · by_cases alive : 0 < c.store.handles b.id
      · simp only [alive, decide_true, ↓reduceIte]
        refine .inl ⟨Store.stays_retain alive, fun b' named => ?_, fun g => .inl⟩
        grind [Names, Owns]
      · simp only [alive, decide_false, Bool.false_eq_true, ↓reduceIte]
        exact .inl (.refl c)
    · exact .inl (.refl c)
  | openAccess b flags =>
    simp only [Client.step]
    split
    · rename_i owns
      cases opened : c.store.openAccess b flags with
      | error cause => exact .inl (.refl c)
      | ok access =>
        obtain ⟨g, s⟩ := access
        obtain ⟨rfl, -⟩ := Store.openAccess_ok opened
        refine .inl ⟨Store.stays_openAccess (sound.alive owns.mem_held) opened, fun b' named => ?_,
          List.forall_mem_cons.2 ⟨.inr (Store.mappable_of_openAccess opened), fun g => .inl⟩⟩
        grind [Names, Owns]
    · exact .inl (.refl c)
  | closeAccess g =>
    simp only [Client.step]
    split
    · rename_i mem
      have alive := sound.alive (List.mem_append_right _ (List.mem_map_of_mem mem))
      refine .inl ⟨Store.stays_closeAccess alive, fun b' named => ?_,
        fun g' mem' => .inl (List.mem_of_mem_erase mem')⟩
      exact named.imp_left (.imp_right fun mem' => List.map_subset _ List.erase_subset mem')
    · exact .inl (.refl c)
  | listen b listener =>
    simp only [Client.step]
    split
    · rename_i allowed
      exact .inl ⟨Store.stays_listen (sound.alive allowed.1.mem_held)
        fun id mem => sound.alive (allowed.2 id mem), fun b' => id, fun g => .inl⟩
    · exact .inl (.refl c)

/-- Every call keeps a program sound, and writes nothing. -/
theorem step (sound : c.Sound) (call : BufferCall) :
    (c.step call).Sound ∧ c.store.Ages (c.step call).store := by
  obtain ⟨balanced, locked⟩ := kept_locked.holds_step ⟨sound.balanced, sound.locked⟩ call
  rcases sound.step_cases call with shares | makes
  · exact sound.of_shares shares balanced locked
  · exact sound.of_makes makes balanced locked

end Sound

end Client

/-! ## Programs that draw -/

/-- A change of bytes in place, so of no more and no fewer than there are. -/
structure Edit where
  apply : Array UInt8 → Array UInt8
  size_apply : ∀ bytes, (apply bytes).size = bytes.size

/-- The guards that a call ends. -/
def BufferCall.ends : BufferCall → List Guard
  | .closeAccess g => [g]
  | _ => []

/-- The buffers that a stroke reads. -/
def Stroke.textures : Stroke → List Buffer
  | .texture d =>
    match d.texture with
    | .stored b => [b]
    | .remote _ _ => []
  | .fill _ | .pause _ => []

inductive StudioCall where
  | buffer (call : BufferCall)
  /-- Change bytes through a guard. -/
  | write (g : Guard) (edit : Edit)
  | startPass (r : Renderer) (b : Buffer)
  /-- Do a stroke in one of the open passes. -/
  | stroke (i : Nat) (stroke : Stroke)
  | finishPass (i : Nat)
  | discardPass (i : Nat)

/-- A program with some open passes; their destinations are among its guards. -/
structure Studio extends Client where
  clock : Clock
  log : List Log.Event
  trace : List TraceEvent
  passes : List Pass

namespace Studio

def start (clock : Clock) : Studio := ⟨Client.start, clock, [], [], []⟩

def session (st : Studio) : Session := ⟨st.store, st.clock, st.log, st.trace⟩

def resume (st : Studio) (σ : Session) : Studio :=
  { st with store := σ.store, clock := σ.clock, log := σ.log, trace := σ.trace }

/-- The guards that the passes keep to themselves. -/
def targets (st : Studio) : List Guard := st.passes.map (·.target)

/-- End the pass in a place; its destination is given up with it. -/
def endPass (st : Studio) (i : Nat) (p : Pass) (σ : Session) : Studio :=
  { st.resume σ with guards := st.guards.erase p.target, passes := st.passes.eraseIdx i }

/-- The guard through which a call writes; it has to be in hand, or the destination of a pass. -/
def writes (st : Studio) : StudioCall → Option Guard
  | .write g _ =>
    if g ∈ st.guards ∧ g ∉ st.targets ∧ g.flags.write = true then some g else none
  | .stroke i stroke =>
    if ∀ b ∈ stroke.textures, st.Owns b then (st.passes[i]?).map (·.target) else none
  | .buffer _ | .startPass _ _ | .finishPass _ | .discardPass _ => none

/-- A call that cannot be made does nothing. -/
def step (α : Type) [Scalar α] (st : Studio) : StudioCall → Studio
  | .buffer call =>
    if ∀ g ∈ call.ends, g ∉ st.targets then { st with toClient := st.toClient.step call } else st
  | .write g edit =>
    if g ∈ st.guards ∧ g ∉ st.targets then
      match st.store.update g fun bytes => .ok (edit.apply bytes) with
      | .ok store => { st with store }
      | .error _ => st
    else st
  | .startPass r b =>
    if st.Owns b then
      match r.start b st.session with
      | .ok (.ok p) σ =>
        { st.resume σ with guards := p.target :: st.guards, passes := p :: st.passes }
      | .ok (.error _) σ | .error _ σ => st.resume σ
    else st
  | .stroke i stroke =>
    match st.passes[i]? with
    | some p =>
      if ∀ b ∈ stroke.textures, st.Owns b then
        match p.stroke α stroke st.session with
        | .ok p' σ => { st.resume σ with passes := st.passes.set i p' }
        | .error _ σ => st.resume σ
      else st
    | none => st
  | .finishPass i =>
    match st.passes[i]? with
    | some p =>
      match p.finish st.session with
      | .ok _ σ | .error _ σ => st.endPass i p σ
    | none => st
  | .discardPass i =>
    match st.passes[i]? with
    | some p =>
      match p.discard st.session with
      | .ok _ σ | .error _ σ => st.endPass i p σ
    | none => st

def runs (α : Type) [Scalar α] (st : Studio) (calls : List StudioCall) : Studio :=
  calls.foldl (step α) st

/-- What holds of a program that draws, at every time: the destinations of its passes are guards
that may write. -/
structure Sound (st : Studio) : Prop where
  client : st.toClient.Sound
  targets : ∀ g, st.targets.count g ≤ st.guards.count g
  writable : ∀ g ∈ st.targets, g.flags.write = true

variable {α : Type} [Scalar α] {st : Studio} {p : Pass} {i : Nat}

theorem sound_start (clock : Clock) : (start clock).Sound :=
  ⟨Client.sound_start, fun _ => Nat.le_refl _, nofun⟩

theorem count_targets (found : st.passes[i]? = some p) (g : Guard) :
    st.targets.count g =
      (if p.target = g then 1 else 0) + ((st.passes.eraseIdx i).map (·.target)).count g := by
  obtain ⟨bound, rfl⟩ := List.getElem?_eq_some_iff.1 found
  have apart := (List.getElem_cons_eraseIdx_perm bound).map (·.target)
  rw [targets, ← apart.count_eq g, List.map_cons, List.count_cons]
  simp only [beq_iff_eq]
  omega

theorem targets_set {p' : Pass} (found : st.passes[i]? = some p)
    (target : p'.target = p.target) : (st.passes.set i p').map (·.target) = st.targets := by
  obtain ⟨bound, rfl⟩ := List.getElem?_eq_some_iff.1 found
  rw [List.map_set, target, Studio.targets]
  exact List.ext_getElem? fun j => by grind

theorem writes_stroke {g : Guard} {stroke : Stroke} :
    st.writes (.stroke i stroke) = some g ↔
      (∀ b ∈ stroke.textures, st.Owns b) ∧ ∃ p, st.passes[i]? = some p ∧ p.target = g := by
  simp only [writes, Option.ite_none_right_eq_some, Option.map_eq_some_iff]

namespace Sound

theorem mem_guards (sound : st.Sound) {g : Guard} (mem : g ∈ st.targets) : g ∈ st.guards := by
  have some := List.count_pos_iff.2 mem
  have most := sound.targets g
  exact List.count_pos_iff.1 (by omega)

/-- Every open pass holds its destination. -/
theorem holds (sound : st.Sound) (mem : p ∈ st.passes) : p.Holds st.store := by
  have target : p.target ∈ st.targets := List.mem_map_of_mem mem
  have guard := sound.mem_guards target
  have writable := sound.writable p.target target
  exact
    { writable
      mappable := sound.client.mapped p.target guard
      has := sound.client.has (.inr (List.mem_map_of_mem guard))
      locked := (sound.client.locked.writer guard writable).1 }

/-- A guard that may write is in hand once. -/
theorem count_guards_le (sound : st.Sound) {g : Guard} (writes : g.flags.write = true) :
    st.guards.count g ≤ 1 := by
  by_cases mem : g ∈ st.guards
  · have lock := (sound.client.locked.writer mem writes).1
    obtain ⟨g', alone, -⟩ := (sound.client.locked g.buffer.id).eq_writing_iff.1 lock
    have few : st.guards.count g = (st.guardsOf g.buffer.id).count g :=
      (List.count_filter (by simp)).symm
    rw [few, alone]
    exact List.count_le_length
  · rw [List.count_eq_zero.2 mem]
    exact Nat.zero_le 1

/-- Two open passes have different destinations. -/
theorem nodup_targets (sound : st.Sound) : st.targets.Nodup := by
  refine List.nodup_iff_count_le_one.2 fun g => ?_
  by_cases mem : g ∈ st.targets
  · exact Nat.le_trans (sound.targets g) (sound.count_guards_le (sound.writable g mem))
  · rw [List.count_eq_zero.2 mem]
    exact Nat.zero_le 1

theorem pass_eq (sound : st.Sound) {q : Pass} (mem : p ∈ st.passes) (mem' : q ∈ st.passes)
    (same : q.target = p.target) : q = p :=
  List.inj_on_of_nodup_map sound.nodup_targets mem' mem same

/-- A stroke of an open pass with textures of the program never breaks off. -/
theorem stroke_ok [LawfulScalar α] (sound : st.Sound) (mem : p ∈ st.passes) {stroke : Stroke}
    (owned : ∀ b ∈ stroke.textures, st.Owns b) :
    ∃ p' σ, p.stroke α stroke st.session = .ok p' σ ∧ p'.target = p.target ∧
      p.Inked (stroke.laid α st.store p.bounds) st.store σ.store := by
  have holds := sound.holds mem
  have known : stroke.Known st.store := by
    rintro d b rfl stored
    exact sound.client.has (owned b (by simp [Stroke.textures, stored]))
  exact Pass.stroke_laid (σ := st.session) (holds.ready sound.client.whole)
    (known.safe sound.client.whole holds)

end Sound

/-- What a call does that writes through a guard, or through none. -/
def Does (st st' : Studio) : Option Guard → Prop
  | none => st.store.Ages st'.store
  | some g => g ∈ st.guards ∧ g ∈ st'.guards ∧ g.flags.write = true ∧
    ∃ bytes, st'.store = st.store.withPixels g.buffer.id bytes ∧
      bytes.size = (st.store.pixels g.buffer.id).size

theorem write_eq {g : Guard} {edit : Edit} (hand : g ∈ st.guards ∧ g ∉ st.targets)
    (writable : g.flags.write = true) : st.step α (.write g edit) =
      { st with
        store := st.store.withPixels g.buffer.id (edit.apply (st.store.pixels g.buffer.id)) } := by
  have written := Store.update_eq_ok (s := st.store) (f := fun bytes => .ok (edit.apply bytes))
    writable rfl
  simp only [step, if_pos hand, written]

namespace Sound

theorem unchanged (sound : st.Sound) : st.Sound ∧ st.Does st none := ⟨sound, .refl _⟩

/-- Only the bytes of one buffer change, as many as there are, and the same guards are alive. -/
theorem wrote (sound : st.Sound) {st' : Studio} {g : Guard} {bytes : Array UInt8}
    (client : st'.toClient = { st.toClient with store := st.store.withPixels g.buffer.id bytes })
    (targets : st'.targets = st.targets) (mem : g ∈ st.guards) (writes : g.flags.write = true)
    (size : bytes.size = (st.store.pixels g.buffer.id).size) :
    st'.Sound ∧ st.Does st' (some g) := by
  have guards : st'.guards = st.guards := by rw [client]
  refine ⟨⟨?_, ?_, ?_⟩, mem, guards ▸ mem, writes, bytes, by rw [client], size⟩
  · exact client ▸ sound.client.withPixels g.buffer.id size
  · rw [targets, guards]
    exact sound.targets
  · rw [targets]
    exact sound.writable

theorem write (sound : st.Sound) {g : Guard} (edit : Edit) (hand : g ∈ st.guards ∧ g ∉ st.targets)
    (writable : g.flags.write = true) :
    (st.step α (.write g edit)).Sound ∧ st.Does (st.step α (.write g edit)) (some g) := by
  rw [write_eq hand writable]
  exact sound.wrote rfl rfl hand.1 writable (edit.size_apply _)

theorem stroke [LawfulScalar α] (sound : st.Sound) (found : st.passes[i]? = some p)
    {stroke : Stroke} (owned : ∀ b ∈ stroke.textures, st.Owns b) :
    (st.step α (.stroke i stroke)).Sound ∧
      st.Does (st.step α (.stroke i stroke)) (some p.target) := by
  have mem := List.mem_of_getElem? found
  obtain ⟨p', σ, drawn, target, bytes, written, takes⟩ := sound.stroke_ok (α := α) mem owned
  simp only [Studio.step, found, if_pos owned, drawn]
  exact sound.wrote (by simp only [resume, written]) (targets_set found target)
    (sound.mem_guards (List.mem_map_of_mem mem)) (sound.holds mem).writable takes.size

/-- Buffer calls keep the destinations of passes, if they do not end them. -/
theorem count_guards_step (c : Client) {call : BufferCall} {g : Guard} (kept : g ∉ call.ends) :
    c.guards.count g ≤ (c.step call).guards.count g := by
  have same : c.guards.count g ≤ c.guards.count g := Nat.le_refl _
  cases call with
  | create | createFrom | createUnmappable =>
    simp only [Client.step]
    unfold Client.keep
    split <;> exact same
  | clone b | drop b | downgrade b | cloneWeak b | listen b listener =>
    simp only [Client.step]
    split <;> exact same
  | dropWeak b => exact same
  | upgrade b =>
    simp only [Client.step]
    split
    · split <;> exact same
    · exact same
  | openAccess b flags =>
    simp only [Client.step]
    split
    · split
      · exact List.count_le_count_cons
      · exact same
    · exact same
  | closeAccess other =>
    simp only [Client.step]
    split
    · have apart : g ≠ other := by simpa [BufferCall.ends] using kept
      simp [List.count_erase_of_ne apart]
    · exact same

theorem bufferCall (sound : st.Sound) {call : BufferCall}
    (kept : ∀ g ∈ call.ends, g ∉ st.targets) :
    Sound { st with toClient := st.toClient.step call } ∧
      st.Does { st with toClient := st.toClient.step call } none := by
  obtain ⟨client, ages⟩ := sound.client.step call
  refine ⟨⟨client, fun g => ?_, sound.writable⟩, ages⟩
  by_cases target : g ∈ st.targets
  · have more := count_guards_step st.toClient fun ends => kept g ends target
    exact Nat.le_trans (sound.targets g) more
  · have none : st.targets.count g = 0 := List.count_eq_zero.2 target
    exact none ▸ Nat.zero_le _

/-- To begin a pass is to open an access for writing. -/
theorem startPass (sound : st.Sound) {r : Renderer} {b : Buffer} (owns : st.Owns b) :
    (st.step α (.startPass r b)).Sound ∧ st.Does (st.step α (.startPass r b)) none := by
  simp only [Studio.step, owns, ↓reduceIte]
  obtain ⟨-, begun⟩ | ⟨-, cause, -, begun⟩ | ⟨-, p, σ, begun, opened⟩ := r.start_cases b st.session
  · rw [begun]
    exact sound.unchanged
  · rw [begun]
    exact sound.unchanged
  · rw [begun]
    obtain ⟨target, -⟩ := Store.openAccess_ok opened
    have client : st.toClient.step (.openAccess b .readWrite) =
        { st.toClient with store := σ.store, guards := p.target :: st.guards } := by
      have opened : st.store.openAccess b .readWrite = .ok (p.target, σ.store) := opened
      simp only [Client.step, owns, ↓reduceIte, opened]
    obtain ⟨client', ages⟩ := sound.client.step (.openAccess b .readWrite)
    rw [client] at client' ages
    refine ⟨⟨client', fun g => ?_, ?_⟩, ages⟩
    · have most := sound.targets g
      simp only [Studio.targets, List.map_cons, List.count_cons] at most ⊢
      omega
    · exact List.forall_mem_cons.2 ⟨congrArg (·.flags.write) target, sound.writable⟩

/-- To end a pass is to end the access of its destination. -/
theorem endPass (sound : st.Sound) {σ : Session} (found : st.passes[i]? = some p)
    (closed : σ.store = st.store.closeAccess p.target) :
    (st.endPass i p σ).Sound ∧ st.Does (st.endPass i p σ) none := by
  have mem : p.target ∈ st.guards :=
    sound.mem_guards (List.mem_map_of_mem (List.mem_of_getElem? found))
  have client : st.toClient.step (.closeAccess p.target) = (st.endPass i p σ).toClient := by
    simp only [Client.step, mem, ↓reduceIte, Studio.endPass, resume, closed]
  obtain ⟨client', ages⟩ := sound.client.step (.closeAccess p.target)
  rw [client] at client' ages
  refine ⟨⟨client', fun g => ?_, fun g target => ?_⟩, ages⟩
  · have most := sound.targets g
    rw [count_targets found] at most
    change ((st.passes.eraseIdx i).map (·.target)).count g ≤ (st.guards.erase p.target).count g
    rw [List.count_erase]
    simp only [beq_iff_eq]
    omega
  · refine sound.writable g (List.count_pos_iff.1 ?_)
    have some := List.count_pos_iff.2 target
    rw [count_targets found]
    exact Nat.add_pos_right _ some

/-- Every call keeps the program sound, and changes bytes only through the guard it writes
through. -/
theorem step [LawfulScalar α] (sound : st.Sound) (call : StudioCall) :
    (st.step α call).Sound ∧ st.Does (st.step α call) (st.writes call) := by
  cases call with
  | buffer call =>
    simp only [Studio.step, writes]
    split
    · rename_i kept
      exact sound.bufferCall kept
    · exact sound.unchanged
  | write g edit =>
    by_cases hand : g ∈ st.guards ∧ g ∉ st.targets
    · cases writable : g.flags.write with
      | true =>
        rw [writes, if_pos ⟨hand.1, hand.2, writable⟩]
        exact sound.write edit hand writable
      | false =>
        simp only [Studio.step, writes, hand, not_false_eq_true, and_self, ↓reduceIte, Store.update,
          writable, Bool.false_eq_true, and_false]
        exact sound.unchanged
    · simp only [Studio.step, writes, ← and_assoc, hand, false_and, ↓reduceIte]
      exact sound.unchanged
  | startPass r b =>
    by_cases owns : st.Owns b
    · exact sound.startPass owns
    · simp only [Studio.step, owns, ↓reduceIte]
      exact sound.unchanged
  | stroke i stroke =>
    cases found : st.passes[i]? with
    | none =>
      simp only [Studio.step, writes, found, Option.map_none, ite_self]
      exact sound.unchanged
    | some p =>
      by_cases owned : ∀ b ∈ stroke.textures, st.Owns b
      · rw [writes, if_pos owned, found]
        exact sound.stroke found owned
      · simp only [Studio.step, writes, found, if_neg owned]
        exact sound.unchanged
  | finishPass i =>
    simp only [Studio.step, writes]
    cases found : st.passes[i]? with
    | none => exact sound.unchanged
    | some p =>
      obtain ⟨span, σ, finished⟩ := p.total_finish st.session
      simp only [finished]
      exact sound.endPass found (Pass.finish_ok finished)
  | discardPass i =>
    simp only [Studio.step, writes]
    cases found : st.passes[i]? with
    | none => exact sound.unchanged
    | some p => exact sound.endPass found rfl

theorem runs [LawfulScalar α] (sound : st.Sound) (calls : List StudioCall) :
    (st.runs α calls).Sound := by
  induction calls generalizing st with
  | nil => exact sound
  | cons call calls ih => exact ih (sound.step call).1

/-- The bytes of every buffer can be counted in a word, at every time. -/
theorem sized_step [LawfulScalar α] (sound : st.Sound) (sized : st.store.Sized)
    (call : StudioCall) :
    (st.step α call).store.Sized := by
  have does := (sound.step (α := α) call).2
  cases writes : st.writes call with
  | none =>
    rw [writes] at does
    exact Store.Ages.sized does sized
  | some g =>
    rw [writes] at does
    obtain ⟨-, -, -, bytes, written, -⟩ := does
    intro id b known
    rw [written, Store.buffer?_withPixels] at known
    exact sized id b known

theorem sized_runs [LawfulScalar α] (sound : st.Sound) (sized : st.store.Sized)
    (calls : List StudioCall) :
    (st.runs α calls).store.Sized := by
  induction calls generalizing st with
  | nil => exact sized
  | cons call calls ih => exact ih (sound.step call).1 (sound.sized_step sized call)

end Sound

end Studio

end Compositor
