import Compositor.Proofs.Store.Cascade

/-!
# Programs that use buffers

A program owns handles, guards and handles that keep nothing alive, and calls what these allow. A
call that names something the program does not own cannot be made, so it does nothing. Whatever is
called, the handles of every buffer are those of the program, its guards and the waiting listeners.
-/

namespace Compositor

/-- What a program can do with buffers. A listener takes a copy of every handle that it holds. -/
inductive BufferCall where
  | create (width height : UInt32) (format : PixelFormat)
  | createFrom (width height : UInt32) (format : PixelFormat) (pixels : Array UInt8)
  | createUnmappable (width height : UInt32) (format : PixelFormat)
  | clone (b : Buffer)
  | drop (b : Buffer)
  | downgrade (b : Buffer)
  | cloneWeak (b : Buffer)
  | dropWeak (b : Buffer)
  | upgrade (b : Buffer)
  | openAccess (b : Buffer) (flags : AccessRights)
  | closeAccess (g : Guard)
  | listen (b : Buffer) (listener : Listener)

structure Client where
  store : Store
  handles : List Buffer
  guards : List Guard
  /-- The handles that keep nothing alive. -/
  weak : List Buffer
  /-- Every listener that was ever added, the oldest first, and the buffer it listens to. -/
  added : List (BufferId × Listener)

namespace Client

def start : Client := ⟨Store.empty, [], [], [], []⟩

/-- The buffers that the program holds: those of its handles and of its guards. -/
def held (c : Client) : List BufferId :=
  c.handles.map (·.id) ++ c.guards.map (·.buffer.id)

/-- A buffer that the program can name: through a handle, or through a guard. -/
def Owns (c : Client) (b : Buffer) : Prop := b ∈ c.handles ∨ b ∈ c.guards.map (·.buffer)

instance (c : Client) (b : Buffer) : Decidable (c.Owns b) := inferInstanceAs (Decidable (_ ∨ _))

/-- Take over a new buffer, if it was made. -/
def keep (c : Client) : Except Fault (Buffer × Store) → Client
  | .ok (b, store) => { c with store, handles := b :: c.handles }
  | .error _ => c

def step (c : Client) : BufferCall → Client
  | .create width height format => c.keep (c.store.create width height format)
  | .createFrom width height format pixels =>
    c.keep (c.store.createFrom width height format pixels)
  | .createUnmappable width height format =>
    c.keep (.ok (c.store.createUnmappable width height format))
  | .clone b =>
    if c.Owns b then { c with store := c.store.retain b.id, handles := b :: c.handles } else c
  | .drop b =>
    if b ∈ c.handles then
      { c with store := c.store.release b.id, handles := c.handles.erase b }
    else c
  | .downgrade b => if c.Owns b then { c with weak := b :: c.weak } else c
  | .cloneWeak b => if b ∈ c.weak then { c with weak := b :: c.weak } else c
  | .dropWeak b => { c with weak := c.weak.erase b }
  | .upgrade b =>
    if b ∈ c.weak then
      match c.store.retain? b.id with
      | some store => { c with store, handles := b :: c.handles }
      | none => c
    else c
  | .openAccess b flags =>
    if c.Owns b then
      match c.store.openAccess b flags with
      | .ok (g, store) => { c with store, guards := g :: c.guards }
      | .error _ => c
    else c
  | .closeAccess g =>
    if g ∈ c.guards then
      { c with store := c.store.closeAccess g, guards := c.guards.erase g }
    else c
  | .listen b listener =>
    if c.Owns b ∧ ∀ id ∈ listener.held, id ∈ c.held then
      { c with store := c.store.listen b.id listener, added := c.added ++ [(b.id, listener)] }
    else c

def run (calls : List BufferCall) : Client := calls.foldl step start

/-! ## Moments of a run -/

/-- What a call does before anything that it gives up is settled, and what is then to be done. -/
def opening (c : Client) : BufferCall → Client × List Task
  | .drop b =>
    if b ∈ c.handles then ({ c with handles := c.handles.erase b }, [.dropBuffer b.id])
    else (c, [])
  | .closeAccess g =>
    if g ∈ c.guards then
      ({ c with
          store := c.store.modify g.buffer.id fun e => { e with lock := e.lock.release }
          guards := c.guards.erase g },
        [.dropBuffer g.buffer.id])
    else (c, [])
  | call => (c.step call, [])

/-- The program after some tasks of a cascade, and the tasks that are left. -/
def after (m : Client × List Task) (n : Nat) : Client × List Task :=
  ({ m.1 with store := (Store.advance^[n] (m.1.store, m.2)).1 },
    (Store.advance^[n] (m.1.store, m.2)).2)

/-- The moment of a call when so many tasks are done of what it gives up. -/
def moment (calls : List BufferCall) (call : BufferCall) (n : Nat) : Client × List Task :=
  after ((run calls).opening call) n

theorem step_eq_settle (c : Client) (call : BufferCall) :
    c.step call = { (c.opening call).1 with
      store := (c.opening call).1.store.settle (c.opening call).2 } := by
  cases call with
  | drop b =>
    simp only [step, opening]
    split
    · rfl
    · simp only [Store.settle]
  | closeAccess g =>
    simp only [step, opening]
    split
    · rfl
    · simp only [Store.settle]
  | create | createFrom | createUnmappable | clone | downgrade | cloneWeak | dropWeak | upgrade
  | openAccess | listen => simp only [opening, Store.settle]

theorem after_add (m : Client × List Task) (n k : Nat) :
    after m (n + k) = after (after m n) k := by
  rw [after, Nat.add_comm, Function.iterate_add_apply]
  rfl

theorem run_append (calls : List BufferCall) (call : BufferCall) :
    run (calls ++ [call]) = (run calls).step call := by
  rw [run, List.foldl_append]
  rfl

/-- What is left at any moment of a call comes to what the whole call does. -/
theorem run_eq_settle_moment (calls : List BufferCall) (call : BufferCall) (n : Nat) :
    run (calls ++ [call]) = { (moment calls call n).1 with
      store := (moment calls call n).1.store.settle (moment calls call n).2 } := by
  rw [run_append, step_eq_settle, ← Store.settle_advance _ _ n]
  rfl

/-- Every call ends, after no more tasks than are left or can come of these. -/
theorem moment_ends (calls : List BufferCall) (call : BufferCall) (n : Nat) :
    ∃ k ≤ (moment calls call n).1.store.weight + Store.tasksWeight (moment calls call n).2,
      moment calls call (n + k) = (run (calls ++ [call]), []) := by
  obtain ⟨k, bound, ends⟩ :=
    Store.advance_settles (moment calls call n).1.store (moment calls call n).2
  refine ⟨k, bound, ?_⟩
  rw [moment, after_add, ← moment, run_eq_settle_moment calls call n, after, ends]

/-! ## What a call does -/

/-- The handles that the program and its guards own. -/
def holding (c : Client) : Holding := ⟨c.held, []⟩

/-- The ways in which a call changes a program and the store, and what is then given up. -/
inductive Moves (c : Client) : Client → List Task → Prop
  /-- At most the weak handles change. -/
  | idle (weak : List Buffer) : (∀ b ∈ weak, b ∈ c.weak ∨ b.id ∈ c.held) →
    Moves c { c with weak } []
  | made {width height : UInt32} {format : PixelFormat} {mappable : Bool} {pixels : Array UInt8}
      (b : Buffer) (store : Store) :
    (b, store) = c.store.insert width height format mappable pixels →
    Moves c { c with store, handles := b :: c.handles } []
  | copied (b : Buffer) : 0 < c.store.handles b.id →
    Moves c { c with store := c.store.retain b.id, handles := b :: c.handles } []
  | dropped (b : Buffer) : b ∈ c.handles →
    Moves c { c with handles := c.handles.erase b } [.dropBuffer b.id]
  | opened (b : Buffer) (flags : AccessRights) (store : Store) : b.id ∈ c.held →
    c.store.openAccess b flags = .ok (⟨b, flags⟩, store) →
    Moves c { c with store, guards := ⟨b, flags⟩ :: c.guards } []
  | closed (g : Guard) : g ∈ c.guards →
    Moves c { c with
      store := c.store.modify g.buffer.id fun e => { e with lock := e.lock.release }
      guards := c.guards.erase g } [.dropBuffer g.buffer.id]
  | listened (b : Buffer) (listener : Listener) : b.id ∈ c.held →
    (∀ id ∈ listener.held, id ∈ c.held) →
    Moves c { c with
      store := c.store.listen b.id listener
      added := c.added ++ [(b.id, listener)] } []

theorem Owns.mem_held {c : Client} {b : Buffer} (owns : c.Owns b) : b.id ∈ c.held := by
  rcases owns with handle | guard
  · exact List.mem_append_left _ (List.mem_map_of_mem handle)
  · obtain ⟨g, mem, rfl⟩ := List.mem_map.1 guard
    exact List.mem_append_right _ (List.mem_map_of_mem mem)

variable {c c' : Client} {tasks : List Task}

theorem moves_keep {made : Except Fault (Buffer × Store)}
    (shape : ∀ b store, made = .ok (b, store) → ∃ width height format mappable pixels,
      (b, store) = c.store.insert width height format mappable pixels) :
    c.Moves (c.keep made) [] := by
  cases made with
  | error fault => exact .idle c.weak fun _ => .inl
  | ok new =>
    obtain ⟨width, height, format, mappable, pixels, inserted⟩ := shape new.1 new.2 rfl
    exact .made new.1 new.2 inserted

theorem opening_moves (balanced : c.store.Balanced c.holding) (call : BufferCall) :
    c.Moves (c.opening call).1 (c.opening call).2 := by
  have nothing : c.Moves c [] := .idle c.weak fun _ => .inl
  cases call with
  | create width height format =>
    refine moves_keep fun b store made => ?_
    obtain ⟨pixels, -, same⟩ := Store.create_ok made
    exact ⟨_, _, _, _, pixels, same⟩
  | createFrom width height format pixels =>
    exact moves_keep fun b store made => ⟨_, _, _, _, pixels, (Store.createFrom_ok made).2⟩
  | createUnmappable width height format =>
    exact moves_keep fun b store made => ⟨_, _, _, _, _, (Except.ok.inj made).symm⟩
  | clone b =>
    simp only [opening, step]
    split
    · rename_i owns
      exact .copied b (Store.handles_pos balanced owns.mem_held)
    · exact nothing
  | drop b =>
    simp only [opening]
    split
    · rename_i mem
      exact .dropped b mem
    · exact nothing
  | downgrade b =>
    simp only [opening, step]
    split
    · rename_i owns
      exact .idle _ (List.forall_mem_cons.2 ⟨.inr owns.mem_held, fun _ => .inl⟩)
    · exact nothing
  | cloneWeak b =>
    simp only [opening, step]
    split
    · rename_i mem
      exact .idle _ (List.forall_mem_cons.2 ⟨.inl mem, fun _ => .inl⟩)
    · exact nothing
  | dropWeak b => exact .idle _ fun _ mem => .inl (List.mem_of_mem_erase mem)
  | upgrade b =>
    simp only [opening, step, Store.retain?, Store.isAlive]
    by_cases alive : 0 < c.store.handles b.id
    · simp only [alive]
      split
      · exact .copied b alive
      · exact nothing
    · simp only [alive]
      split <;> exact nothing
  | openAccess b flags =>
    simp only [opening, step]
    split
    · rename_i owns
      cases opened : c.store.openAccess b flags with
      | error cause => exact nothing
      | ok access =>
        obtain ⟨g, store⟩ := access
        obtain ⟨rfl, -⟩ := Store.openAccess_ok opened
        exact .opened b flags store owns.mem_held opened
    · exact nothing
  | closeAccess g =>
    simp only [opening]
    split
    · rename_i mem
      exact .closed g mem
    · exact nothing
  | listen b listener =>
    simp only [opening, step]
    split
    · rename_i allowed
      exact .listened b listener allowed.1.mem_held allowed.2
    · exact nothing

theorem count_held_erase_handle {b : Buffer} (mem : b ∈ c.handles) (id : BufferId) :
    c.held.count id = (if b.id = id then 1 else 0) +
      ({ c with handles := c.handles.erase b } : Client).held.count id := by
  have apart := ((List.perm_cons_erase mem).map (·.id)).count_eq id
  simp only [held, List.count_append, apart, List.map_cons, List.count_cons, beq_iff_eq]
  omega

theorem count_held_erase_guard {g : Guard} (mem : g ∈ c.guards) (id : BufferId) :
    c.held.count id = (if g.buffer.id = id then 1 else 0) +
      ({ c with guards := c.guards.erase g } : Client).held.count id := by
  have apart := ((List.perm_cons_erase mem).map (·.buffer.id)).count_eq id
  simp only [held, List.count_append, apart, List.map_cons, List.count_cons, beq_iff_eq]
  omega

/-- Every call keeps the balance; what it gives up is still held by its tasks. -/
theorem Moves.balanced (moves : c.Moves c' tasks) (balanced : c.store.Balanced c.holding) :
    c'.store.Balanced (Task.holdings tasks ++ c'.holding) := by
  have single (id other : BufferId) :
      (Holding.single id).buffers.count other = if id = other then 1 else 0 := by
    simp [Holding.buffers_single, List.count_cons]
  cases moves with
  | idle weak known => exact balanced
  | made b store inserted =>
    obtain ⟨rfl, rfl⟩ := Prod.mk.inj inserted
    exact balanced.insert _ _ _ _ _
  | copied b alive =>
    obtain ⟨e, found, -⟩ := Store.entry?_isSome_of_handles alive
    exact balanced.modify_add ⟨e, found⟩ (fun _ => rfl) fun _ => rfl
  | dropped b mem =>
    refine balanced.congr (fun id => ?_) fun _ => rfl
    rw [Holding.buffers_append, List.count_append]
    exact (count_held_erase_handle mem id).trans (congrArg (· + _) (single b.id id).symm)
  | opened b flags store mem opened =>
    have both := balanced.openAccess (Store.exists_entry balanced mem) opened
    refine both.congr (fun id => ?_) fun _ => rfl
    simp only [Holding.buffers_append, List.count_append, single, holding, held, List.map_cons,
      List.count_cons, beq_iff_eq]
    have none : (Task.holdings []).buffers.count id = 0 := rfl
    omega
  | closed g mem =>
    have unlocked : (c.store.modify g.buffer.id
        fun e => { e with lock := e.lock.release }).Balanced c.holding :=
      balanced.modify _ (fun _ => rfl) fun _ => rfl
    refine unlocked.congr (fun id => ?_) fun _ => rfl
    rw [Holding.buffers_append, List.count_append]
    exact (count_held_erase_guard mem id).trans (congrArg (· + _) (single g.buffer.id id).symm)
  | listened b listener mem held => exact balanced.listen mem held

/-! ## Induction over a run -/

/-- A property of the moments of a run that every call and every task keeps. -/
structure Kept (P : Client → List Task → Prop) : Prop where
  opening : ∀ {c c' tasks}, c.store.Balanced c.holding → c.Moves c' tasks → P c [] → P c' tasks
  perform : ∀ {c task rest}, P c (task :: rest) →
    P { c with store := (c.store.perform task).1 } ((c.store.perform task).2 ++ rest)

/-- The property at a moment, with the balance of all handles. -/
def Holds (P : Client → List Task → Prop) (m : Client × List Task) : Prop :=
  m.1.store.Balanced (Task.holdings m.2 ++ m.1.holding) ∧ P m.1 m.2

namespace Kept

variable {P : Client → List Task → Prop}

theorem holds_opening (kept : Kept P) (holds : Holds P (c, [])) (call : BufferCall) :
    Holds P (c.opening call) := by
  have moves := opening_moves holds.1 call
  exact ⟨moves.balanced holds.1, kept.opening holds.1 moves holds.2⟩

theorem holds_after (kept : Kept P) {m : Client × List Task} (holds : Holds P m) (n : Nat) :
    Holds P (after m n) := by
  refine Function.Iterate.rec
    (fun r : Store × List Task => Holds P ({ m.1 with store := r.1 }, r.2)) holds ?_ n
  rintro ⟨s, _ | ⟨task, rest⟩⟩ before
  · exact before
  · obtain ⟨balanced, property⟩ := before
    rw [Task.holdings_cons, Holding.append_assoc] at balanced
    refine ⟨?_, kept.perform property⟩
    rw [Store.advance, Task.holdings_append, Holding.append_assoc]
    exact balanced.perform

theorem holds_step (kept : Kept P) (holds : Holds P (c, [])) (call : BufferCall) :
    Holds P (c.step call, []) := by
  obtain ⟨n, -, ends⟩ := Store.advance_settles (c.opening call).1.store (c.opening call).2
  have settled := kept.holds_after (kept.holds_opening holds call) n
  rwa [after, ends, ← step_eq_settle] at settled

theorem holds_foldl (kept : Kept P) (holds : Holds P (c, [])) (calls : List BufferCall) :
    Holds P (calls.foldl step c, []) := by
  induction calls generalizing c with
  | nil => exact holds
  | cons call calls ih => exact ih (kept.holds_step holds call)

/-- What holds at the start holds after every run. -/
theorem holds_run (kept : Kept P) (initial : P start []) (calls : List BufferCall) :
    Holds P (run calls, []) :=
  kept.holds_foldl ⟨Store.balanced_empty, initial⟩ calls

/-- What holds at the start holds at every moment. -/
theorem holds_moment (kept : Kept P) (initial : P start []) (calls : List BufferCall)
    (call : BufferCall) (n : Nat) : Holds P (moment calls call n) :=
  kept.holds_after (kept.holds_opening (kept.holds_run initial calls) call) n

end Kept

end Client

end Compositor
