import Compositor.Proofs.Store.Client
import Compositor.Proofs.Session.Effects

/-!
# Locks and guards

A lock is a word that stands for a set of guards: free for none, a number of readers for so many
guards that only read, held by a writer for a single guard that may write. Guards end in any order,
and each ends by the same step on the lock; that step is right only as long as the lock stands for
the guards that are alive.
-/

namespace Compositor

/-- The lock stands for these guards. -/
def Lock.StandsFor : Lock → List Guard → Prop
  | idle, guards => guards = []
  | reading n, guards => guards.length = n ∧ guards ≠ [] ∧ ∀ g ∈ guards, g.flags.write = false
  | writing, guards => ∃ g, guards = [g] ∧ g.flags.write = true

/-- The lock after one more access, with the readers counted in 32 bits. -/
def Lock.acquireChecked : Lock → (write : Bool) → Except Fault (Option Lock)
  | reading n, false => return some (reading (← Word.countUp n))
  | lock, write => return lock.acquire write

theorem Lock.acquireChecked_eq {lock : Lock}
    (few : ∀ n, lock = .reading n → n + 1 < UInt32.size) (write : Bool) :
    lock.acquireChecked write = .ok (lock.acquire write) := by
  cases lock with
  | reading n =>
    cases write with
    | true => rfl
    | false =>
      rw [acquireChecked, Word.countUp_eq (few n rfl)]
      rfl
  | idle | writing => rfl

namespace Lock.StandsFor

variable {lock lock' : Lock} {guards : List Guard}

theorem acquire (stands : lock.StandsFor guards) (g : Guard)
    (acquired : lock.acquire g.flags.write = some lock') : lock'.StandsFor (g :: guards) := by
  cases writes : g.flags.write with
  | true =>
    cases lock with
    | idle =>
      cases writes ▸ acquired
      cases stands
      exact ⟨g, rfl, writes⟩
    | reading n => cases writes ▸ acquired
    | writing => cases writes ▸ acquired
  | false =>
    cases lock with
    | idle =>
      cases writes ▸ acquired
      cases stands
      exact ⟨rfl, List.cons_ne_nil _ _, by simpa using writes⟩
    | reading n =>
      cases writes ▸ acquired
      obtain ⟨count, -, readers⟩ := stands
      exact ⟨by rw [List.length_cons, count], List.cons_ne_nil _ _,
        List.forall_mem_cons.2 ⟨writes, readers⟩⟩
    | writing => cases writes ▸ acquired

/-- The guard that ends may be any of those that are alive. -/
theorem release (stands : lock.StandsFor guards) {g : Guard} (mem : g ∈ guards) :
    lock.release.StandsFor (guards.erase g) := by
  cases lock with
  | idle =>
    cases stands
    cases mem
  | writing =>
    obtain ⟨writer, rfl, -⟩ := stands
    cases List.mem_singleton.1 mem
    exact List.erase_cons_head g []
  | reading n =>
    obtain ⟨count, -, readers⟩ := stands
    have left : (guards.erase g).length = n - 1 := by rw [List.length_erase_of_mem mem, count]
    by_cases many : 1 < n
    · rw [Lock.release, if_pos many]
      refine ⟨left, fun empty => ?_, fun other still => readers other (List.mem_of_mem_erase still)⟩
      rw [empty, List.length_nil] at left
      omega
    · rw [Lock.release, if_neg many]
      exact List.eq_nil_of_length_eq_zero (by omega)

/-- An access conflicts with a guard that writes; one that is to write, with any guard. -/
theorem acquire_eq_none (stands : lock.StandsFor guards) (write : Bool) :
    lock.acquire write = none ↔
      (∃ g ∈ guards, g.flags.write = true) ∨ write = true ∧ guards ≠ [] := by
  cases lock with
  | idle =>
    cases stands
    cases write <;> simp [Lock.acquire]
  | reading n =>
    obtain ⟨-, some, readers⟩ := stands
    have none_writes : ¬ ∃ g ∈ guards, g.flags.write = true := by
      rintro ⟨g, mem, writes⟩
      rw [readers g mem] at writes
      cases writes
    cases write <;> simp [Lock.acquire, some, none_writes]
  | writing =>
    obtain ⟨writer, rfl, writes⟩ := stands
    simp [Lock.acquire, writes]

theorem eq_idle_iff (stands : lock.StandsFor guards) : lock = .idle ↔ guards = [] := by
  constructor
  · rintro rfl
    exact stands
  · rintro rfl
    cases lock with
    | idle => rfl
    | reading n => exact absurd rfl stands.2.1
    | writing => obtain ⟨g, impossible, -⟩ := stands; cases impossible

theorem eq_writing_iff (stands : lock.StandsFor guards) :
    lock = .writing ↔ ∃ g, guards = [g] ∧ g.flags.write = true := by
  constructor
  · rintro rfl
    exact stands
  · rintro ⟨g, rfl, writes⟩
    cases lock with
    | idle => cases stands
    | reading n =>
      have reads := stands.2.2 g List.mem_cons_self
      rw [writes] at reads
      cases reads
    | writing => rfl

theorem eq_reading_iff (stands : lock.StandsFor guards) (n : Nat) :
    lock = .reading n ↔
      0 < n ∧ guards.length = n ∧ ∀ g ∈ guards, g.flags.write = false := by
  constructor
  · rintro rfl
    obtain ⟨count, some, readers⟩ := stands
    exact ⟨count ▸ List.length_pos_iff.2 some, count, readers⟩
  · rintro ⟨positive, rfl, readers⟩
    cases lock with
    | idle =>
      cases stands
      cases positive
    | reading m => rw [stands.1]
    | writing =>
      obtain ⟨g, rfl, writes⟩ := stands
      rw [readers g List.mem_cons_self] at writes
      cases writes

end Lock.StandsFor

namespace Client

/-- The guards of a buffer that are alive. -/
def guardsOf (c : Client) (id : BufferId) : List Guard := c.guards.filter (·.buffer.id = id)

/-- Every lock stands for the guards of its buffer. -/
def Locked (c : Client) : Prop := ∀ id, (c.store.lock id).StandsFor (c.guardsOf id)

variable {c c' : Client} {tasks : List Task}

theorem Locked.of_fixed? (locked : c.Locked) (guards : c'.guards = c.guards)
    (same : ∀ id, c'.store.fixed? id = c.store.fixed? id) : c'.Locked := by
  intro id
  rw [Store.lock_eq_of_fixed? (same id), guardsOf, guards]
  exact locked id

/-- Only opening and ending an access changes a lock, and then only that of its own buffer. -/
theorem Moves.locked (balanced : c.store.Balanced c.holding) (moves : c.Moves c' tasks)
    (locked : c.Locked) : c'.Locked := by
  cases moves with
  | idle weak known => exact locked
  | made b store inserted =>
    obtain ⟨rfl, rfl⟩ := Prod.mk.inj inserted
    exact fun id => (c.store.lock_insert _ _ _ _ _ id).symm ▸ locked id
  | copied b alive => exact locked.of_fixed? rfl (Store.fixed?_retain _ _)
  | dropped b mem => exact locked
  | listened b listener mem held => exact locked.of_fixed? rfl (Store.fixed?_listen _ _ listener)
  | opened b flags store mem opened =>
    intro id
    obtain ⟨-, lock, acquired, rfl⟩ := Store.openAccess_ok opened
    obtain ⟨e, found⟩ := Store.exists_entry balanced mem
    change (Store.lock _ id).StandsFor (List.filter _ (⟨b, flags⟩ :: c.guards))
    rw [List.filter_cons, Store.lock_modify]
    by_cases same : id = b.id
    · subst same
      rw [if_pos rfl, if_pos (by simp), found]
      exact (locked b.id).acquire ⟨b, flags⟩ acquired
    · rw [if_neg same, if_neg (by simpa using Ne.symm same)]
      exact locked id
  | closed g mem =>
    intro id
    change (Store.lock _ id).StandsFor (List.filter _ (c.guards.erase g))
    rw [← List.erase_filter, Store.lock_modify]
    by_cases same : id = g.buffer.id
    · subst same
      obtain ⟨e, found⟩ := Store.exists_entry balanced
        (List.mem_append_right _ (List.mem_map_of_mem mem) : g.buffer.id ∈ c.holding.buffers)
      have stands := (locked g.buffer.id).release (List.mem_filter.2 ⟨mem, by simp⟩)
      rw [Store.lock, found] at stands
      rwa [if_pos rfl, found]
    · have other : g ∉ c.guards.filter (·.buffer.id = id) := by
        intro there
        exact same (Eq.symm (by simpa using (List.mem_filter.1 there).2))
      rw [if_neg same, List.erase_of_not_mem other]
      exact locked id

theorem kept_locked : Kept fun c _ => c.Locked where
  opening balanced moves locked := moves.locked balanced locked
  perform locked := locked.of_fixed? rfl (Store.fixed?_perform _ _)

theorem locked_run (calls : List BufferCall) : (run calls).Locked :=
  (kept_locked.holds_run (fun _ => rfl) calls).2

/-- Whatever a program calls, a lock is free if no guard of its buffer is alive, held by a writer if
the only guard may write, and shared by as many readers as there are guards if none may write. So an
access is refused only to a buffer that cannot be mapped, or because of a guard that conflicts, and
a refusal changes nothing. As long as fewer guards are alive than a 32-bit word can count, so is the
number of readers, and the count in 32 bits is the same. -/
theorem lock_stands_for_guards (calls : List BufferCall) :
    let c := run calls
    (∀ id, (c.store.lock id = .idle ↔ c.guardsOf id = []) ∧
      (c.store.lock id = .writing ↔ ∃ g, c.guardsOf id = [g] ∧ g.flags.write = true) ∧
      ∀ n, c.store.lock id = .reading n ↔
        0 < n ∧ (c.guardsOf id).length = n ∧ ∀ g ∈ c.guardsOf id, g.flags.write = false) ∧
    (∀ b flags, (c.store.openAccess b flags = .error .notMappable ↔ b.mappable = false) ∧
      (c.store.openAccess b flags = .error .busy ↔ b.mappable = true ∧
        ((∃ g ∈ c.guardsOf b.id, g.flags.write = true) ∨
          flags.write = true ∧ c.guardsOf b.id ≠ []))) ∧
    (∀ b flags cause σ, σ.store = c.store → c.store.openAccess b flags = .error cause →
      Action.openAccess b flags σ = .ok (.error cause) σ) ∧
    ∀ id, (c.guardsOf id).length < UInt32.size - 1 →
      (∀ n, c.store.lock id = .reading n → n + 1 < UInt32.size) ∧
      ∀ write, (c.store.lock id).acquireChecked write = .ok ((c.store.lock id).acquire write) := by
  intro c
  have locked : c.Locked := locked_run calls
  refine ⟨fun id => ?_, fun b flags => ?_, fun b flags cause σ same refused => ?_,
    fun id few => ?_⟩
  · exact ⟨(locked id).eq_idle_iff, (locked id).eq_writing_iff, (locked id).eq_reading_iff⟩
  · have conflict := (locked b.id).acquire_eq_none flags.write
    unfold Store.openAccess
    cases mappable : b.mappable with
    | false => simp
    | true =>
      cases acquired : (c.store.lock b.id).acquire flags.write with
      | none => simpa using conflict.1 acquired
      | some lock =>
        have free := mt conflict.2 (by simp [acquired])
        simpa using free
  · rw [← same] at refused
    refine Action.bind_eq_ok rfl ?_
    rw [refused]
    rfl
  · have fits (n : Nat) (reading : c.store.lock id = .reading n) : n + 1 < UInt32.size := by
      obtain ⟨-, count, -⟩ := ((locked id).eq_reading_iff n).1 reading
      omega
    exact ⟨fits, Lock.acquireChecked_eq fits⟩

/-- Two readers and no writer, until both have ended. -/
theorem lock_counts_two_readers :
    let b : Buffer := ⟨⟨0⟩, 1, 1, .argb8888, true⟩
    let c := run [.create 1 1 .argb8888, .openAccess b .readOnly, .openAccess b .readOnly]
    c.store.lock b.id = .reading 2 ∧ c.store.openAccess b .readWrite = .error .busy ∧
      Action.openAccess b .readWrite ⟨c.store, default, [], []⟩ =
        .ok (.error .busy) ⟨c.store, default, [], []⟩ ∧
      2 + 1 < UInt32.size ∧
      (c.store.lock b.id).acquireChecked false = .ok (some (.reading 3)) := by
  intro b c
  obtain ⟨states, refusals, kept, counted⟩ := lock_stands_for_guards
    [.create 1 1 .argb8888, .openAccess b .readOnly, .openAccess b .readOnly]
  have alive : c.guardsOf b.id = [⟨b, .readOnly⟩, ⟨b, .readOnly⟩] := by decide +kernel
  have reading : c.store.lock b.id = .reading 2 := (states b.id).2.2 2 |>.2 (by decide +kernel)
  have busy : c.store.openAccess b .readWrite = .error .busy := by
    refine (refusals b .readWrite).2.2 ⟨rfl, .inr ⟨rfl, ?_⟩⟩
    exact alive ▸ List.cons_ne_nil _ _
  obtain ⟨fits, checked⟩ := counted b.id (by decide +kernel)
  refine ⟨reading, busy, kept b .readWrite .busy _ rfl busy, fits 2 reading, ?_⟩
  rw [checked, reading]
  rfl

end Client

end Compositor
