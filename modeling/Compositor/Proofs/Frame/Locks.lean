import Compositor.Proofs.Draw.Whole
import Compositor.Proofs.Frame.Growth
import Compositor.Proofs.Output.Ownership

/-!
# Locks are given back

A pass takes the lock of its destination and one handle of it, and gives both back when it ends, in
whichever way. Each texture is held for the time of one stroke. So whatever is drawn, and however a
frame goes, the locks are afterwards what they were before.
-/

namespace Compositor

open Compositor.Action

/-! ## Counts -/

namespace Store

variable {s s' s₁ s₂ : Store} {b : Buffer} {g : Guard}

/-- All locks are the same, and all numbers of handles. -/
def SameCounts (s s' : Store) : Prop :=
  ∀ id, s'.lock id = s.lock id ∧ s'.handles id = s.handles id

theorem sameCounts_withPixels (s : Store) (id : BufferId) (bytes : Array UInt8) :
    s.SameCounts (s.withPixels id bytes) :=
  fun other => ⟨lock_eq_of_fixed? (s.fixed?_modify id other fun _ => ⟨rfl, rfl⟩),
    s.handles_modify id other fun _ => rfl⟩

theorem lock_closeAccess (s : Store) (g : Guard) (id : BufferId) :
    (s.closeAccess g).lock id = if id = g.buffer.id then (s.lock id).release else s.lock id := by
  have settled : (s.closeAccess g).lock id =
      (s.modify g.buffer.id fun e => { e with lock := e.lock.release }).lock id :=
    lock_eq_of_fixed? (fixed?_settle _ _ id)
  rw [settled, lock_modify]
  split
  · rename_i same
    subst same
    cases found : s.entry? g.buffer.id <;> simp [lock, found, Lock.release]
  · rfl

theorem openAccess_denied {cause : AccessError}
    (denied : s.openAccess b .readWrite = .error cause) :
    cause = .notMappable ∧ b.mappable = false ∨ cause = .busy ∧ s.lock b.id ≠ .idle := by
  unfold openAccess at denied
  split at denied
  · split at denied
    · cases denied
    · rename_i conflict
      cases denied
      refine .inr ⟨rfl, fun idle => ?_⟩
      simp [idle, Lock.acquire, AccessRights.readWrite] at conflict
  · rename_i unmappable
    cases denied
    exact .inl ⟨rfl, by simpa using unmappable⟩

/-- Ending the access gives back what opening it took, whatever was written meanwhile. -/
theorem counts_closeAccess (has : s.Has b) (opened : s.openAccess b .readWrite = .ok (g, s₁))
    (same : s₁.SameCounts s₂) : s.SameCounts (s₂.closeAccess g) := by
  obtain ⟨-, free, rfl, -⟩ := openAccess_write opened
  have counts (id : BufferId) := counts_openAccess has opened id
  have shared : 1 < s₂.handles b.id := by
    have alive := has.2
    have more := (counts b.id).2
    rw [if_pos rfl] at more
    have kept := (same b.id).2
    omega
  obtain ⟨e, found, number⟩ := entry?_isSome_of_handles (Nat.lt_trans Nat.one_pos shared)
  intro id
  refine ⟨?_, ?_⟩
  · rw [lock_closeAccess, (same id).1, (counts id).1]
    split
    · rename_i here
      rw [here, free]
      rfl
    · rfl
  · have closed := closeAccess_shared (g := ⟨b, .readWrite⟩) found (by omega)
    have before := (counts id).2
    have kept := (same id).2
    rw [closed, handles, entry?_modify]
    split
    · rename_i here
      subst here
      rw [found]
      simp only [Option.map_some, Option.getD_some]
      grind
    · rename_i apart
      rw [← handles, kept, before, if_neg apart, Nat.add_zero]

end Store

/-! ## A pass -/

variable {σ σ' : Session} {b : Buffer}

/-- What is drawn in a pass that holds its destination changes no lock and no count, and the ways
to end the pass change both alike. -/
theorem Pass.Holds.counts {α : Type} [Scalar α] [LawfulScalar α] {p : Pass}
    (holds : p.Holds σ.store) (whole : σ.store.Whole) {strokes : List Stroke}
    (known : ∀ stroke ∈ strokes, stroke.Known σ.store) :
    ∃ p' stats σ', p.strokes α strokes σ = .ok (p', stats) σ' ∧ σ.store.SameCounts σ'.store ∧
      (∃ span σ'', p'.finish σ' = .ok span σ'' ∧
        σ''.store = σ'.store.closeAccess p.target) ∧
      ∃ σ'', p'.discard σ' = .ok () σ'' ∧ σ''.store = σ'.store.closeAccess p.target := by
  obtain ⟨p', stats, σ', drawn, target, bytes, written, -⟩ := holds.strokes (α := α) whole known
  refine ⟨p', stats, σ', drawn, written ▸ σ.store.sameCounts_withPixels _ bytes, ?_, ?_⟩
  · obtain ⟨span, σ'', finished⟩ := p'.total_finish σ'
    exact ⟨span, σ'', finished, target ▸ finish_ok finished⟩
  · exact ⟨_, rfl, target ▸ rfl⟩

/-! ## A frame -/

namespace FrameLoop

variable {d d' : FrameLoop} {c : Conditions} {k : Holding} {α : Type} [Scalar α]

/-- The loop owns the handles that it thinks it owns, its buffers are those that the store made for
it, and the store is whole. -/
structure Equipped (d : FrameLoop) (s : Store) : Prop where
  whole : s.Whole
  owned : ∃ k, s.Balanced (d.holding ++ k)
  buffers : ∀ b ∈ d.buffers, s.buffer? b.id = some b

theorem Equipped.has {s : Store} (equipped : d.Equipped s) (mem : b ∈ d.buffers) : s.Has b := by
  obtain ⟨k, balanced⟩ := equipped.owned
  exact ⟨equipped.buffers b mem, Store.handles_pos balanced (mem_holding mem k)⟩

theorem total_startPass (d : FrameLoop) (c : Conditions) (b : Buffer) :
    Total (d.startPass c b) := by
  intro σ
  unfold startPass
  cases c.startError with
  | some error => exact ⟨_, _, rfl⟩
  | none =>
    obtain ⟨-, done⟩ | ⟨-, cause, -, done⟩ | ⟨-, p, σ₁, done, -⟩ := d.renderer.start_cases b σ
    all_goals exact ⟨_, _, done⟩

/-- A frame that breaks off before its pass began has done nothing but begin its damage phase. If
there is a next buffer, then what it lacks cannot be measured, and its handle was given up again. -/
theorem beginFrame_steps {fault : Fault} (h : d.beginFrame c σ = .error fault σ') :
    ∃ t σ₁ r σ₂, now σ = .ok t σ₁ ∧
      (FrameRecord.new d.frames d.output t).enter .damage σ₁ = .ok r σ₂ ∧
      (d.buffers[d.next]? = none ∧ σ' = σ₂ ∨
        ∃ b, d.buffers[d.next]? = some b ∧
          (d.ring.rotateFor σ₂.store.isAlive b.id).2.area = .error fault ∧
          σ' = { σ₂ with store := (σ₂.store.retain b.id).release b.id }) := by
  unfold beginFrame at h
  obtain ⟨t, σ₁, timing, h₁⟩ := total_now.bind_error h
  obtain ⟨r, σ₂, entering, h₂⟩ := (total_enter _ _).bind_error h₁
  refine ⟨t, σ₁, r, σ₂, timing, entering, ?_⟩
  cases found : d.buffers[d.next]? with
  | none =>
    unfold takeBuffer at h₂
    simp only [found] at h₂
    cases h₂
    exact .inl ⟨rfl, rfl⟩
  | some b =>
    obtain missing | ⟨⟨d₁, b', damage⟩, σ₃, taking, h₃⟩ := bind_error h₂
    · cases (takeBuffer_eq found σ₂).symm.trans missing
    cases (takeBuffer_eq found σ₂).symm.trans taking
    obtain tooLarge | ⟨area, σ₄, measuring, h₄⟩ := bind_error h₃
    · obtain ⟨σ₃, broken, rfl⟩ := unwinding_error.1 tooLarge
      obtain ⟨measured, rfl⟩ := ofExcept_error broken
      exact .inr ⟨b, rfl, measured, rfl⟩
    -- From here on nothing can break off.
    refine absurd h₄ (Total.ne_error ?_)
    refine (total_emit _).bind fun _ => (total_leave _ _).bind fun _ =>
      (total_enter _ _).bind fun _ => (total_startPass _ _ _).bind fun started => ?_
    cases started with
    | error error => exact (total_abandon _ _ _ _ _).bind fun _ => total_pure _
    | ok p => exact (total_emit _).bind fun _ => total_pure _

/-- A frame that breaks off before its pass began has changed nothing in the store, if the loop's
buffers are alive. -/
theorem beginFrame_error {fault : Fault} (h : d.beginFrame c σ = .error fault σ') :
    (∀ b, d.buffers[d.next]? = some b →
      (d.ring.rotateFor σ.store.isAlive b.id).2.area = .error fault) ∧
    ((∀ b ∈ d.buffers, 0 < σ.store.handles b.id) → σ'.store = σ.store) := by
  obtain ⟨t, σ₁, r, σ₂, timing, entering, steps⟩ := beginFrame_steps h
  have before : σ₂.store = σ.store :=
    (FrameRecord.quiet_enter _ _ entering).trans (quiet_now timing)
  obtain ⟨missing, rfl⟩ | ⟨b, found, measured, rfl⟩ := steps
  · exact ⟨fun b found => absurd (missing.symm.trans found) nofun, fun _ => before⟩
  · rw [before] at measured
    refine ⟨fun b' found' => ?_, fun alive => ?_⟩
    · cases found.symm.trans found'
      exact measured
    · simp only [before]
      exact Store.release_retain (alive b (List.mem_of_getElem? found))

/-- Closing the pass and offering the buffer adds no buffer and drops no bytes. -/
theorem endFrame_stays {f : OpenFrame} {result : Except PassError Bool}
    (h : d.endFrame c f σ = .ok (d', result) σ')
    (balanced : σ.store.Balanced (.single f.pass.target.buffer.id ++
      (.single f.buffer.id ++ (d.display.config.holding ++ k)))) : σ.store.Stays σ'.store := by
  have closes : σ.store.Stays (σ.store.closeAccess f.pass.target) :=
    Store.stays_closeAccess (Store.handles_pos balanced (List.mem_append_left _ (.head _)))
  obtain ⟨error, -, -, same⟩ | ⟨r, accepted, σ₁, -, closed, presenting⟩ := endFrame_steps h
  · rw [same]
    exact closes.trans (Store.stays_settle _ _)
  · obtain ⟨d₁, σ₂, σ₃, before, committing, -, after⟩ := present_steps presenting
    have held : σ₂.store.Balanced (.single f.buffer.id ++ (d.display.config.holding ++ k)) :=
      before.trans closed ▸ balanced.closeAccess
    have commits : σ₂.store.Stays σ₃.store := by
      obtain ⟨-, same⟩ | ⟨-, same⟩ := commit_steps committing
      · rw [same]
        exact Store.stays_settle _ _
      · rw [same]
        exact .of_follows (HeadlessDisplay.follows_commit held)
          (HeadlessDisplay.fixed?_commit _ _ _)
    rw [after]
    exact closes.trans (before.trans closed ▸ commits)

/-- The painter draws textures that are in the store. It may break off. -/
def KnowsTextures (painter : Region → Painting) (s : Store) : Prop :=
  ∀ damage, ∀ stroke ∈ (painter damage).strokes, stroke.Known s

/-- The painter draws and does nothing else, with textures that are in the store. -/
def OnlyDraws (painter : Region → Painting) (s : Store) : Prop :=
  ∀ damage, (painter damage).fault = none ∧ ∀ stroke ∈ (painter damage).strokes, stroke.Known s

theorem OnlyDraws.knows {painter : Region → Painting} {s : Store} (draws : OnlyDraws painter s) :
    KnowsTextures painter s :=
  fun damage => (draws damage).2

theorem Closes.buffers {trusted : Prop} (closes : Closes d d' trusted) :
    d'.buffers = d.buffers := by
  obtain ⟨display, ⟨-, rfl⟩ | ⟨-, rfl⟩⟩ := closes <;> rfl

namespace Equipped

variable {s : Store} {painter : Region → Painting}

/-- The frame takes one more handle of a buffer. -/
theorem retain (equipped : d.Equipped s) (mem : b ∈ d.buffers) : d.Equipped (s.retain b.id) := by
  have stays := Store.stays_retain (equipped.has mem).2
  have locks (id : BufferId) : (s.retain b.id).lock id = s.lock id :=
    Store.lock_eq_of_fixed? (s.fixed?_retain b.id id)
  obtain ⟨k, balanced⟩ := equipped.owned
  exact ⟨equipped.whole.stays stays fun id => locks id ▸ equipped.whole.lock id,
    ⟨.single b.id ++ k, (balanced.retain (mem_holding mem k)).left_comm⟩,
    fun b' listed => (stays.buffers b'.id).trans (equipped.buffers b' listed)⟩

/-- The strokes of a frame whose pass began change nothing but bytes of its buffer, and closing the
pass gives the lock back. -/
theorem strokes [LawfulScalar α] {f : OpenFrame} {σ₁ : Session} (equipped : d.Equipped σ.store)
    (mem : b ∈ d.buffers)
    (granted : (σ.store.retain b.id).openAccess b .readWrite = .ok (f.pass.target, σ₁.store))
    (knows : KnowsTextures painter σ.store) :
    ∃ p stats σ₂ bytes, f.pass.strokes α (painter f.damage).strokes σ₁ = .ok (p, stats) σ₂ ∧
      p.target = f.pass.target ∧
      σ₂.store = σ₁.store.withPixels f.pass.target.buffer.id bytes ∧ σ₂.store.Whole ∧
      ∀ id, (σ₂.store.closeAccess f.pass.target).lock id = σ.store.lock id := by
  have alive := (equipped.has mem).2
  have held := equipped.retain mem
  have has := held.has mem
  obtain ⟨holds, whole⟩ := Pass.Holds.of_openAccess held.whole has granted
  have known (stroke : Stroke) (listed : stroke ∈ (painter f.damage).strokes) :
      stroke.Known σ₁.store :=
    ((knows f.damage stroke listed).retain alive).opened has granted
  obtain ⟨p, stats, σ₂, drawn, target, bytes, written, takes⟩ :=
    holds.strokes (α := α) whole known
  refine ⟨p, stats, σ₂, bytes, drawn, target, written, written ▸ whole.withPixels takes.size,
    fun id => ?_⟩
  have same : σ₁.store.SameCounts σ₂.store := written ▸ σ₁.store.sameCounts_withPixels _ bytes
  rw [(Store.counts_closeAccess has granted same id).1]
  exact Store.lock_eq_of_fixed? (σ.store.fixed?_retain b.id id)

/-- A painter that breaks off leaves what it had drawn; the pass and the buffer are dropped. -/
theorem breaks_off [LawfulScalar α] {f : OpenFrame} {σ₁ : Session} {fault : Fault}
    (equipped : d.Equipped σ.store) (mem : b ∈ d.buffers)
    (begun : d.beginFrame c σ = .ok (d', .ok f) σ₁)
    (granted : (σ.store.retain b.id).openAccess b .readWrite = .ok (f.pass.target, σ₁.store))
    (knows : KnowsTextures painter σ.store) (broken : (painter f.damage).fault = some fault) :
    ∃ σ', d.makeFrame α c painter σ = .error fault σ' ∧
      ∀ id, σ'.store.lock id = σ.store.lock id := by
  obtain ⟨p, stats, σ₂, bytes, drawn, -, -, -, locks⟩ :=
    equipped.strokes (α := α) mem granted knows
  have dropped : unwinding ((painter f.damage).draw α f.pass) f.drop σ₁ =
      .error fault { σ₂ with store := f.drop σ₂.store } :=
    unwinding_error.2 ⟨σ₂, Painting.draw_error drawn broken, rfl⟩
  refine ⟨_, (bind_eq begun).trans (bind_eq_error dropped), fun id => ?_⟩
  exact (Store.lock_eq_of_fixed? (Store.fixed?_settle _ _ id)).trans (locks id)

/-- A frame that is drawn gives its lock back, and the loop is as well equipped as before. -/
theorem gives_back [LawfulScalar α] {f : OpenFrame} {σ₁ : Session} (equipped : d.Equipped σ.store)
    (mem : f.buffer ∈ d.buffers)
    (begun : d.beginFrame c σ = .ok (d.turned σ.store.isAlive f.buffer, .ok f) σ₁)
    (granted : (σ.store.retain f.buffer.id).openAccess f.buffer .readWrite =
      .ok (f.pass.target, σ₁.store))
    (knows : KnowsTextures painter σ.store) (unbroken : (painter f.damage).fault = none) :
    ∃ d' o σ', d.makeFrame α c painter σ = .ok (d', o) σ' ∧
      (∀ id, σ'.store.lock id = σ.store.lock id) ∧ d'.Equipped σ'.store := by
  obtain ⟨p, stats, σ₂, bytes, drawn, target, written, whole, locks⟩ :=
    equipped.strokes (α := α) mem granted knows
  have drawing := Painting.draw_ok.2 ⟨drawn, unbroken⟩
  obtain ⟨⟨d', result⟩, σ', closing⟩ :=
    total_endFrame (d.turned σ.store.isAlive f.buffer) c { f with pass := p } σ₂
  have frame : d.makeFrame α c painter σ = .ok (d', ⟨result, some (f.damage, stats)⟩) σ' :=
    bind_eq_ok begun (bind_eq_ok (unwinding_ok.2 drawing) (bind_eq_ok closing rfl))
  have locks' (id : BufferId) : σ'.store.lock id = σ.store.lock id := by
    rw [Store.lock_eq_of_fixed? (endFrame_fixed? closing id), ← locks id]
    exact congrArg (fun g => (σ₂.store.closeAccess g).lock id) target
  refine ⟨d', _, σ', frame, locks', ?_⟩
  obtain ⟨k, balanced⟩ := equipped.owned
  have balanced₂ : σ₂.store.Balanced (.single p.target.buffer.id ++ (.single f.buffer.id ++
      (d.display.config.holding ++ (d.swapchainHolding ++ k)))) := by
    have held := balanced.retain (mem_holding mem k)
    have open₁ := held.openAccess (Store.exists_entry held (.head _)) granted
    rw [holding, Holding.append_assoc] at open₁
    rw [written, target, (Store.openAccess_write granted).2.2.1]
    exact open₁.withPixels _ bytes
  have stays := endFrame_stays closing balanced₂
  obtain ⟨-, -, owned, -⟩ := makeFrame_keeps frame balanced
  have buffers : d'.buffers = d.buffers := (endFrame_ok closing balanced₂).1.buffers
  refine ⟨whole.stays stays fun id => locks' id ▸ equipped.whole.lock id, ⟨k, owned⟩, ?_⟩
  have held := equipped.retain mem
  have opens := Store.stays_openAccess (held.has mem).2 granted
  intro b listed
  rw [stays.buffers, written, Store.buffer?_withPixels, opens.buffers]
  exact held.buffers b (buffers ▸ listed)

/-- However a frame ends, the locks are as they were. -/
theorem makeFrame [LawfulScalar α] (equipped : d.Equipped σ.store)
    (knows : KnowsTextures painter σ.store) :
    (∃ fault σ', d.makeFrame α c painter σ = .error fault σ' ∧
        ∀ id, σ'.store.lock id = σ.store.lock id) ∨
      ∃ d' o σ', d.makeFrame α c painter σ = .ok (d', o) σ' ∧
        (∀ id, σ'.store.lock id = σ.store.lock id) ∧ d'.Equipped σ'.store := by
  cases begun : d.beginFrame c σ with
  | error fault σ₁ =>
    have same := (beginFrame_error begun).2 fun b mem => (equipped.has mem).2
    exact .inl ⟨fault, σ₁, bind_eq_error begun, fun id => by rw [same]⟩
  | ok first σ₁ =>
    obtain ⟨d₁, opened⟩ := first
    obtain ⟨b, found, ⟨f, rfl, rfl, rfl, -, granted⟩ | ⟨error, rfl, rfl, released⟩⟩ :=
      beginFrame_result begun
    · have mem : f.buffer ∈ d.buffers := List.mem_of_getElem? found
      cases ends : (painter f.damage).fault with
      | some fault => exact .inl ⟨fault, equipped.breaks_off mem begun granted knows ends⟩
      | none => exact .inr (equipped.gives_back mem begun granted knows ends)
    · have same := released.trans
        (Store.release_retain (equipped.has (List.mem_of_getElem? found)).2)
      refine .inr ⟨_, _, σ₁, bind_eq_ok begun rfl, fun id => by rw [same], ?_⟩
      rw [same]
      exact ⟨equipped.whole, equipped.owned, equipped.buffers⟩

/-- New buffers are those that the store made, and the old ones are still there. -/
theorem allocate_whole {config : Swapchain} {width height : UInt32} {n : Nat}
    {buffers : List Buffer} (h : allocate config width height n σ = .ok buffers σ')
    (whole : σ.store.Whole) :
    σ'.store.Whole ∧
      (∀ id b, σ.store.buffer? id = some b → σ'.store.buffer? id = some b) ∧
      ∀ b ∈ buffers, σ'.store.buffer? b.id = some b := by
  induction n generalizing σ buffers with
  | zero =>
    obtain ⟨rfl, rfl⟩ := pure_ok h
    exact ⟨whole, fun _ _ => id, nofun⟩
  | succ n ih =>
    obtain ⟨b, σ₁, creating, rest⟩ := bind_ok h
    obtain ⟨others, σ₂, allocating, ending⟩ := bind_ok rest
    obtain ⟨rfl, rfl⟩ := pure_ok ending
    obtain ⟨pixels, size, created⟩ := Store.create_ok (withStore_ok creating)
    obtain ⟨first, before⟩ := Store.buffer?_made created
    have whole₁ : σ₁.store.Whole := by
      rw [(Prod.mk.inj created).2]
      exact whole.insert fun _ => size
    obtain ⟨whole₂, kept, made⟩ := ih allocating whole₁
    exact ⟨whole₂, fun id b known => kept id b (before id b known),
      List.forall_mem_cons.2 ⟨kept _ _ first, made⟩⟩

theorem resize {width height : UInt32} (equipped : d.Equipped σ.store)
    (h : d.resize width height σ = .ok d' σ') : d'.Equipped σ'.store := by
  obtain ⟨k, balanced⟩ := equipped.owned
  obtain ⟨rfl, rfl, -⟩ | ⟨apart, buffers, -, rfl, -, owned⟩ := resize_ok h balanced
  · exact equipped
  · unfold FrameLoop.resize at h
    rw [if_neg (by grind)] at h
    obtain ⟨made, σ₁, allocating, h₁⟩ := bind_ok h
    obtain ⟨u, σ₂, disposing, h₂⟩ := bind_ok h₁
    obtain ⟨u, σ₃, noting, h₃⟩ := bind_ok h₂
    obtain ⟨u, σ₄, noting', ending⟩ := bind_ok h₃
    obtain ⟨same, rfl⟩ := pure_ok ending
    obtain rfl : made = buffers := congrArg FrameLoop.buffers same
    obtain ⟨whole, -, known⟩ := allocate_whole allocating equipped.whole
    have after : σ₄.store = σ₁.store.dispose ⟨d.buffers.map (·.id), []⟩ := by
      rw [quiet_note _ noting', quiet_notes _ noting, modifyStore_ok disposing]
    have stays : σ₁.store.Stays σ₄.store := after ▸ Store.stays_settle _ _
    have locks (id : BufferId) : σ₄.store.lock id = σ₁.store.lock id :=
      Store.lock_eq_of_fixed? (after ▸ Store.fixed?_settle _ _ id)
    exact ⟨whole.stays stays fun id => locks id ▸ whole.lock id, ⟨k, owned⟩,
      fun b mem => (stays.buffers b.id).trans (known b mem)⟩

theorem new {output : OutputId} {width height : UInt32} {swapchain : Swapchain}
    {renderer : Renderer} {display : HeadlessDisplay}
    (h : FrameLoop.new output width height swapchain renderer display σ = .ok d σ')
    (whole : σ.store.Whole) (balanced : σ.store.Balanced (display.config.holding ++ k)) :
    d.Equipped σ'.store := by
  refine Equipped.resize ⟨whole, ⟨k, ?_⟩, fun _ mem => absurd mem List.not_mem_nil⟩ h
  rw [holding, Holding.append_assoc]
  exact balanced

end Equipped

/-- A loop in use. Its painters only draw, with textures that are in the store; other code may do
anything that leaves the loop equipped. -/
inductive Lives : FrameLoop → Session → Prop
  | new {output : OutputId} {width height : UInt32} {swapchain : Swapchain} {renderer : Renderer}
      {display : HeadlessDisplay} {k : Holding} {σ : Session} {d : FrameLoop} {σ' : Session} :
    σ.store.Whole → σ.store.Balanced (display.config.holding ++ k) →
    FrameLoop.new output width height swapchain renderer display σ = .ok d σ' → Lives d σ'
  | damage {d : FrameLoop} {σ : Session} (region : Region) : Lives d σ → Lives (d.damage region) σ
  | damageRect {d : FrameLoop} {σ : Session} (rect : Rect) : Lives d σ → Lives (d.damageRect rect) σ
  | resize {d d' : FrameLoop} {σ σ' : Session} {width height : UInt32} : Lives d σ →
    d.resize width height σ = .ok d' σ' → Lives d' σ'
  | frame {β : Type} [Scalar β] [LawfulScalar β] {d d' : FrameLoop} {σ σ' : Session}
      {c : Conditions} {painter : Region → Painting} {o : FrameOutcome} : Lives d σ →
    OnlyDraws painter σ.store →
    d.makeFrame β c painter σ = .ok (d', o) σ' → Lives d' σ'
  | other {d : FrameLoop} {σ σ' : Session} : Lives d σ → d.Equipped σ'.store → Lives d σ'

theorem Lives.equipped (lives : Lives d σ) : d.Equipped σ.store := by
  induction lives with
  | new whole balanced made => exact .new made whole balanced
  | damage region _ ih => exact { ih with }
  | damageRect rect _ ih => exact { ih with }
  | resize _ resized ih => exact ih.resize resized
  | @frame β _ _ _ _ _ _ c _ _ _ draws made ih =>
    obtain ⟨fault, σ', broken, -⟩ | ⟨d', o, σ', done, -, equipped⟩ :=
      ih.makeFrame (α := β) (c := c) draws.knows
    · cases made.symm.trans broken
    · cases made.symm.trans done
      exact equipped
  | other _ equipped _ => exact equipped

/-- A pass that is refused, for its format or for the destination, has changed nothing. A pass that
begins holds the lock of its destination for writing and one more handle of it; however it draws, no
lock and no count changes, also where a texture is skipped; and when it is submitted or dropped all
locks and counts are what they were before it began. So after a frame of a loop in use whose painter
knows its textures, whatever its outcome and also if the painter breaks off, all locks are what they
were. -/
theorem locks_are_given_back (α : Type) [Scalar α] [LawfulScalar α] {σ : Session}
    (whole : σ.store.Whole) :
    (∀ (r : Renderer) (b : Buffer), σ.store.Has b →
      (∃ error, r.start b σ = .ok (.error error) σ ∧
        (error = .format ∧ b.format ∉ r.formats ∨
          error = .destination .notMappable ∧ b.mappable = false ∨
          error = .destination .busy ∧ σ.store.lock b.id ≠ .idle)) ∨
      ∃ p σ₁, r.start b σ = .ok (.ok p) σ₁ ∧
        (∀ id, σ₁.store.lock id = (if id = b.id then .writing else σ.store.lock id) ∧
          σ₁.store.handles id = σ.store.handles id + if id = b.id then 1 else 0) ∧
        ∀ strokes : List Stroke, (∀ stroke ∈ strokes, stroke.Known σ.store) →
          ∃ p' stats σ₂, p.strokes α strokes σ₁ = .ok (p', stats) σ₂ ∧
            σ₁.store.SameCounts σ₂.store ∧
            (∃ span σ₃, p'.finish σ₂ = .ok span σ₃ ∧ σ.store.SameCounts σ₃.store) ∧
            ∃ σ₃, p'.discard σ₂ = .ok () σ₃ ∧ σ.store.SameCounts σ₃.store) ∧
    ∀ (d : FrameLoop) (c : Conditions) (painter : Region → Painting), Lives d σ →
      KnowsTextures painter σ.store →
      match d.makeFrame α c painter σ with
      | .ok _ σ' | .error _ σ' => ∀ id, σ'.store.lock id = σ.store.lock id := by
  refine ⟨fun r b has => ?pass, fun d c painter lives knows => ?frame⟩
  case pass =>
    obtain ⟨unknown, refused⟩ | ⟨-, cause, denied, refused⟩ | ⟨-, p, σ₁, begun, opened⟩ :=
      r.start_cases b σ
    · exact .inl ⟨.format, refused, .inl ⟨rfl, unknown⟩⟩
    · refine .inl ⟨.destination cause, refused, .inr ?_⟩
      obtain ⟨rfl, unmappable⟩ | ⟨rfl, held⟩ := Store.openAccess_denied denied
      · exact .inl ⟨rfl, unmappable⟩
      · exact .inr ⟨rfl, held⟩
    · obtain ⟨holds, whole₁⟩ := Pass.Holds.of_openAccess whole has opened
      have counts (id : BufferId) := Store.counts_openAccess has opened id
      refine .inr ⟨p, σ₁, begun, counts, fun strokes known => ?_⟩
      have known₁ (stroke : Stroke) (listed : stroke ∈ strokes) : stroke.Known σ₁.store :=
        (known stroke listed).opened has opened
      obtain ⟨p', stats, σ₂, drawn, same, ⟨span, σ₃, finished, closed⟩, σ₄, dropped, closed'⟩ :=
        holds.counts (α := α) whole₁ known₁
      have given := Store.counts_closeAccess has opened same
      exact ⟨p', stats, σ₂, drawn, same, ⟨span, σ₃, finished, closed ▸ given⟩, σ₄, dropped,
        closed' ▸ given⟩
  case frame =>
    obtain ⟨fault, σ', broken, locks⟩ | ⟨d', o, σ', done, locks, -⟩ :=
      lives.equipped.makeFrame (α := α) (c := c) knows
    · rw [broken]
      exact locks
    · rw [done]
      exact locks

/-- A pass on one of two buffers draws the other one, and skips its own destination; then a frame is
made. Nothing is locked in the end. -/
theorem nothing_stays_locked :
    ∃ (d : FrameLoop) (σ : Session) (b b' : Buffer),
      FrameLoop.new ⟨1⟩ 2 1 .double {} (.new ⟨1⟩ false) (.new default) = .ok d σ ∧
      d.buffers = [b, b'] ∧ (∀ other, σ.store.lock other = .idle) ∧
      (∃ p σ₁ p' stats σ₂ span σ₃, ({} : Renderer).start b σ = .ok (.ok p) σ₁ ∧
        σ₁.store.lock b.id = .writing ∧
        p.strokes Rat [.texture { texture := .stored b' }, .texture { texture := .stored b }] σ₁ =
          .ok (p', stats) σ₂ ∧
        p'.finish σ₂ = .ok span σ₃ ∧ ∀ other, σ₃.store.lock other = .idle) ∧
      match d.makeFrame Rat {} (fun _ => ⟨[], none⟩) σ with
      | .ok _ σ' | .error _ σ' => ∀ other, σ'.store.lock other = .idle := by
  have made : Returns (FrameLoop.new ⟨1⟩ 2 1 .double {} (.new ⟨1⟩ false)) (.new default) fun d σ =>
      d.buffers.length = 2 ∧ (∀ e ∈ σ.store.entries, e.lock = .idle) ∧
        ∀ b ∈ d.buffers, σ.store.Has b ∧ b.mappable = true ∧ b.format = .xrgb8888 := by
    decide +kernel
  obtain ⟨d, σ, new, two, free, buffers⟩ := made.exists_ok
  obtain ⟨b, b', pair⟩ := List.length_eq_two.1 two
  have lives : Lives d σ := .new (k := ⟨[], []⟩) Store.whole_empty Store.balanced_empty new
  have idle (id : BufferId) : σ.store.lock id = .idle := by
    cases found : σ.store.entry? id with
    | none => simp [Store.lock, found]
    | some e => exact (Store.lock_eq found).trans (free e (List.mem_of_getElem? found))
  obtain ⟨has, mappable, format⟩ := buffers b (by simp [pair])
  obtain ⟨has', -, -⟩ := buffers b' (by simp [pair])
  obtain ⟨passes, frames⟩ := locks_are_given_back Rat lives.equipped.whole
  refine ⟨d, σ, b, b', new, pair, idle, ?_, ?_⟩
  · obtain ⟨error, -, refused⟩ | ⟨p, σ₁, begun, counts, draws⟩ := passes {} b has
    · rw [format, mappable, idle] at refused
      exact absurd refused (by simp [PixelFormat.all])
    · obtain ⟨p', stats, σ₂, drawn, -, ⟨span, σ₃, finished, same⟩, -⟩ := draws
        [.texture { texture := .stored b' }, .texture { texture := .stored b }] (by
          intro stroke mem d b'' texture stored
          grind)
      refine ⟨p, σ₁, p', stats, σ₂, span, σ₃, begun, ?_, drawn, finished, fun other => ?_⟩
      · rw [(counts b.id).1, if_pos rfl]
      · rw [(same other).1, idle]
  · have after := frames d {} (fun _ => ⟨[], none⟩) lives fun _ _ mem =>
      absurd mem List.not_mem_nil
    simpa only [idle] using after

end FrameLoop

end Compositor
