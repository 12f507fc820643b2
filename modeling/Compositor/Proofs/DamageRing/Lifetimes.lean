import Compositor.Proofs.DamageRing.Tracking
import Compositor.Proofs.Draw.Studio
import Compositor.Proofs.Store.Destruction
import Mathlib.Data.List.Dedup

/-!
# Which buffers a ring tracks

A ring is not told when a buffer ends: its entry stays until the next rotation for a buffer, and is
left out when the entries are counted. A program may make, share and give up buffers between any
calls on the ring. Whatever it does, the buffers that were handed to the ring and are alive have one
entry each, and every other entry is for a buffer that has ended. The ring holds none of them, so
a buffer lives exactly as long as it would without the ring.
-/

namespace Compositor

/-! ## Numbers of entries -/

namespace DamageRing

/-- The buffers that have an entry. -/
def ids (ring : DamageRing) : List BufferId := ring.tracked.map (·.id)

variable (ring : DamageRing) (alive : BufferId → Bool) (id other : BufferId)

@[simp] theorem ids_addRect (rect : Rect) : (ring.addRect rect).ids = ring.ids := by
  unfold addRect
  split <;> rfl

@[simp] theorem ids_resize (width height : Coord) : (ring.resize width height).ids = ring.ids := by
  unfold resize
  split <;> rfl

@[simp] theorem ids_rotate : ring.rotate.ids = ring.ids := rfl

@[simp] theorem ids_prune : (ring.prune alive).ids = ring.ids.filter alive :=
  List.filter_map.symm

@[simp] theorem ids_credit : (ring.credit id).ids = ring.ids := by
  simp only [ids, credit, List.map_map]
  refine List.map_congr_left fun entry _ => ?_
  simp only [Function.comp_apply]
  split <;> rfl

theorem missed?_eq_none : ring.missed? id = none ↔ id ∉ ring.ids := by
  rw [missed?, Option.map_eq_none_iff, List.find?_eq_none, ids]
  simp

/-- A buffer without an entry gets one, behind those of the buffers that are alive. -/
theorem ids_rotateFor : (ring.rotateFor alive id).1.ids =
    if id ∈ ring.ids.filter alive then ring.ids.filter alive
    else ring.ids.filter alive ++ [id] := by
  have entry := (ring.prune alive).missed?_eq_none id
  rw [ids_prune] at entry
  unfold rotateFor
  cases found : (ring.prune alive).missed? id with
  | none =>
    rw [if_neg (entry.1 found)]
    simp only [found, ids_rotate, ids_credit]
    rw [← ids_prune]
    exact List.map_append
  | some missed =>
    have listed : id ∈ ring.ids.filter alive := by
      refine Decidable.not_not.1 fun missing => ?_
      rw [entry.2 missing] at found
      cases found
    rw [if_pos listed]
    simp only [found, ids_rotate, ids_credit, ids_prune]

theorem mem_ids_rotateFor : other ∈ (ring.rotateFor alive id).1.ids ↔
    other = id ∨ other ∈ ring.ids ∧ alive other := by
  rw [ids_rotateFor]
  split <;> grind

theorem nodup_ids_rotateFor {ring : DamageRing} (nodup : ring.ids.Nodup) :
    (ring.rotateFor alive id).1.ids.Nodup := by
  have kept := nodup.filter alive
  rw [ids_rotateFor]
  split
  · exact kept
  · rename_i new
    exact List.nodup_append.2 ⟨kept, List.nodup_singleton id, by grind⟩

theorem trackedCount_eq : ring.trackedCount alive = (ring.ids.filter alive).length := by
  rw [← ids_prune, ids, List.length_map]
  rfl

end DamageRing

/-! ## What entries stand for -/

/-- Who is alive later was alive before, if what has ended stays as it is. -/
theorem Store.isAlive_before {s s' : Store} {id : BufferId} {b : Buffer}
    (known : s.buffer? id = some b)
    (stays : ∀ e, s.entry? id = some e → e.handles = 0 → s'.entry? id = some e)
    (alive : s'.isAlive id) : s.isAlive id := by
  obtain ⟨e, found, -⟩ := Option.map_eq_some_iff.1 known
  by_contra ended
  have none : e.handles = 0 := by simpa [isAlive, handles_eq found] using ended
  simp [isAlive, handles_eq (stays e found none), none] at alive

namespace Client

variable {c c' : Client} {tasks : List Task}

/-- No call changes what is known of a buffer. -/
theorem Moves.buffer? (moves : c.Moves c' tasks) {id : BufferId} {b : Buffer}
    (known : c.store.buffer? id = some b) : c'.store.buffer? id = some b := by
  cases moves with
  | idle | dropped => exact known
  | made b' store inserted => exact (Store.buffer?_made inserted).2 id b known
  | copied b' alive => exact Eq.trans (Store.buffer?_modify _ _ id fun _ => rfl) known
  | opened b' flags store mem opened =>
    obtain ⟨-, lock, -, rfl⟩ := Store.openAccess_ok opened
    exact Eq.trans (Store.buffer?_modify _ _ id fun _ => rfl) known
  | closed g mem => exact Eq.trans (Store.buffer?_modify _ _ id fun _ => rfl) known
  | listened b' listener mem held =>
    exact (Store.buffer?_eq_of_fixed? (c.store.fixed?_listen b'.id listener id)).trans known

/-- Some entries stand for the buffers that were handed to a ring: each is for one of these, and
those that are alive have one. -/
structure Stands (c : Client) (passed : List Buffer) (ids : List BufferId) : Prop where
  known : ∀ b ∈ passed, c.store.buffer? b.id = some b
  handed : ∀ id ∈ ids, ∃ b ∈ passed, b.id = id
  alive : ∀ b ∈ passed, c.store.isAlive b.id → b.id ∈ ids
  nodup : ids.Nodup

/-- Whatever a program does with its buffers, the entries stand for those that were handed in. A
buffer that has ended does not come back, so no entry is missed later. -/
theorem kept_stands (passed : List Buffer) (ids : List BufferId) :
    Kept fun c _ => c.Stands passed ids where
  opening balanced moves stands :=
    { stands with
      known := fun b mem => moves.buffer? (stands.known b mem)
      alive := fun b mem alive => stands.alive b mem <|
        Store.isAlive_before (stands.known b mem)
          (fun _ found ended => moves.entry?_of_ended balanced found ended) alive }
  perform {c task _} stands :=
    { stands with
      known := fun b mem =>
        (Store.buffer?_eq_of_fixed? (c.store.fixed?_perform task b.id)).trans (stands.known b mem)
      alive := fun b mem alive => stands.alive b mem <|
        Store.isAlive_before (stands.known b mem)
          (fun _ found ended => Store.entry?_perform_of_ended found ended task) alive }

namespace Stands

variable {passed : List Buffer} {ids : List BufferId}

theorem start : Client.start.Stands [] [] where
  known := nofun
  handed := nofun
  alive := nofun
  nodup := .nil

/-- Buffers that were handed in are told apart by their numbers. -/
theorem id_inj (stands : c.Stands passed ids) {b b' : Buffer} (mem : b ∈ passed)
    (mem' : b' ∈ passed) (same : b.id = b'.id) : b = b' := by
  have known := stands.known b mem
  rw [same, stands.known b' mem'] at known
  exact (Option.some.inj known).symm

/-- The entries that count are as many as the buffers that were handed in and are alive. -/
theorem length_filter (stands : c.Stands passed ids) : (ids.filter c.store.isAlive).length =
    (passed.dedup.filter (c.store.isAlive ·.id)).length := by
  have unique : ((passed.dedup.filter (c.store.isAlive ·.id)).map (·.id)).Nodup := by
    refine List.Nodup.map_on ?_ ((List.nodup_dedup passed).filter _)
    intro b mem b' mem' same
    have handed := List.mem_dedup.1 (List.mem_of_mem_filter mem)
    exact stands.id_inj handed (List.mem_dedup.1 (List.mem_of_mem_filter mem')) same
  have same : (ids.filter c.store.isAlive).Perm
      ((passed.dedup.filter (c.store.isAlive ·.id)).map (·.id)) := by
    refine (List.perm_ext_iff_of_nodup (stands.nodup.filter _) unique).2 fun id => ?_
    simp only [List.mem_filter, List.mem_map, List.mem_dedup]
    constructor
    · rintro ⟨listed, alive⟩
      obtain ⟨b, mem, rfl⟩ := stands.handed id listed
      exact ⟨b, ⟨mem, alive⟩, rfl⟩
    · rintro ⟨b, ⟨mem, alive⟩, rfl⟩
      exact ⟨stands.alive b mem alive, alive⟩
  rw [same.length_eq, List.length_map]

/-- Right after a rotation for a buffer, the entries are those of the living. -/
theorem mem_rotateFor {ring : DamageRing} {b : Buffer} (stands : c.Stands passed ring.ids)
    (alive : c.store.isAlive b.id) (id : BufferId) :
    id ∈ (ring.rotateFor c.store.isAlive b.id).1.ids ↔
      c.store.isAlive id ∧ ∃ b' ∈ b :: passed, b'.id = id := by
  rw [DamageRing.mem_ids_rotateFor]
  constructor
  · rintro (rfl | ⟨listed, living⟩)
    · exact ⟨alive, b, .head _, rfl⟩
    · obtain ⟨b', mem, same⟩ := stands.handed id listed
      exact ⟨living, b', .tail _ mem, same⟩
  · rintro ⟨living, b', mem | ⟨_, mem⟩, rfl⟩
    · exact .inl rfl
    · exact .inr ⟨stands.alive b' mem living, living⟩

theorem rotateFor {ring : DamageRing} {b : Buffer} (stands : c.Stands passed ring.ids)
    (known : c.store.buffer? b.id = some b) (alive : c.store.isAlive b.id) :
    c.Stands (b :: passed) (ring.rotateFor c.store.isAlive b.id).1.ids where
  known := List.forall_mem_cons.2 ⟨known, stands.known⟩
  handed id listed := ((stands.mem_rotateFor alive id).1 listed).2
  alive b' mem living := (stands.mem_rotateFor alive b'.id).2 ⟨living, b', mem, rfl⟩
  nodup := DamageRing.nodup_ids_rotateFor _ _ stands.nodup

end Stands

end Client

/-! ## Programs with a ring -/

/-- What a program can do that has buffers and a ring. -/
inductive RingClientCall where
  | buffer (call : BufferCall)
  | add (region : Region)
  | addRect (rect : Rect)
  | addEverything
  | resize (width height : Coord)
  | rotate
  | rotateFor (b : Buffer)

/-- The part of a call that has to do with buffers. -/
def RingClientCall.bufferCall? : RingClientCall → Option BufferCall
  | buffer call => some call
  | add _ | addRect _ | addEverything | resize _ _ | rotate | rotateFor _ => none

structure RingClient extends Client where
  ring : DamageRing
  /-- The buffers that were handed to the ring, the last one first. -/
  passed : List Buffer

namespace RingClient

/-- Only a buffer that the program owns can be handed in. -/
def step (s : RingClient) : RingClientCall → RingClient
  | .buffer call => { s with toClient := s.toClient.step call }
  | .add region => { s with ring := s.ring.add region }
  | .addRect rect => { s with ring := s.ring.addRect rect }
  | .addEverything => { s with ring := s.ring.addEverything }
  | .resize width height => { s with ring := s.ring.resize width height }
  | .rotate => { s with ring := s.ring.rotate }
  | .rotateFor b =>
    if s.Owns b then
      { s with ring := (s.ring.rotateFor s.store.isAlive b.id).1, passed := b :: s.passed }
    else s

/-- The run of a list of calls on a new ring; sides of zero give one without bounds. -/
def run (width height : Coord) (calls : List RingClientCall) : RingClient :=
  calls.foldl step ⟨Client.start, DamageRing.bounded width height, []⟩

/-- The program between two calls, or in the middle of a call when so many tasks are done of what
the call gives up; and the tasks that are left. -/
def moment (s : RingClient) (call : Option BufferCall) (n : Nat) : Client × List Task :=
  Client.after (call.elim (s.toClient, []) s.toClient.opening) n

/-- What is kept by calls and tasks holds at every moment if it holds between the calls. -/
theorem holds_moment {P : Client → List Task → Prop} (kept : Client.Kept P) {s : RingClient}
    (holds : Client.Holds P (s.toClient, [])) (call : Option BufferCall) (n : Nat) :
    Client.Holds P (s.moment call n) := by
  refine kept.holds_after ?_ n
  cases call with
  | none => exact holds
  | some call => exact kept.holds_opening holds call

/-- What holds between any two calls. -/
structure Sound (s : RingClient) : Prop where
  client : s.toClient.Sound
  stands : s.toClient.Stands s.passed s.ring.ids

theorem Sound.step {s : RingClient} (sound : s.Sound) (call : RingClientCall) :
    (s.step call).Sound := by
  obtain ⟨client, stands⟩ := sound
  cases call with
  | buffer call =>
    have kept := Client.kept_stands s.passed s.ring.ids
    exact ⟨(client.step call).1, (kept.holds_step ⟨client.balanced, stands⟩ call).2⟩
  | add | addEverything | rotate => exact ⟨client, stands⟩
  | addRect rect => exact ⟨client, (s.ring.ids_addRect rect).symm ▸ stands⟩
  | resize width height => exact ⟨client, (s.ring.ids_resize width height).symm ▸ stands⟩
  | rotateFor b =>
    rw [RingClient.step]
    split
    · rename_i owns
      obtain ⟨known, alive⟩ := client.has owns
      exact ⟨client, stands.rotateFor known (decide_eq_true alive)⟩
    · exact ⟨client, stands⟩

theorem sound_run (width height : Coord) (calls : List RingClientCall) :
    (run width height calls).Sound := by
  suffices all : ∀ s : RingClient, s.Sound → (calls.foldl step s).Sound from
    all _ ⟨Client.sound_start, .start⟩
  induction calls with
  | nil => exact fun _ sound => sound
  | cons call calls ih => exact fun s sound => ih _ (sound.step call)

/-- The ring takes no part in what becomes of the buffers. -/
theorem toClient_run (width height : Coord) (calls : List RingClientCall) :
    (run width height calls).toClient = Client.run (calls.filterMap (·.bufferCall?)) := by
  suffices all : ∀ s : RingClient, (calls.foldl step s).toClient =
      (calls.filterMap (·.bufferCall?)).foldl Client.step s.toClient from all _
  induction calls with
  | nil => exact fun _ => rfl
  | cons call calls ih =>
    intro s
    rw [List.foldl_cons, ih]
    cases call with
    | rotateFor b =>
      rw [step]
      split <;> rfl
    | buffer | add | addRect | addEverything | resize | rotate => rfl

/-- Between two calls, and also while a buffer is being given up, the buffers that are counted are
those that were handed to the ring and are alive. A rotation for a buffer leaves one entry for each
of these, its own included, and no other. The buffers and all handles of them are as if there were
no ring: the handles of a buffer are those of the program, of its guards, of the waiting listeners
and of what is being given up. A buffer that is made anew is none of those that were handed in. -/
theorem ring_tracks_the_living (width height : Coord) (calls : List RingClientCall)
    (call : Option BufferCall) (n : Nat) :
    let s := run width height calls
    let c := (s.moment call n).1
    s.ring.trackedCount c.store.isAlive =
      (s.passed.dedup.filter (c.store.isAlive ·.id)).length ∧
    (∀ b, c.Owns b →
      let ids := (s.ring.rotateFor c.store.isAlive b.id).1.ids
      ids.Nodup ∧ b.id ∈ ids ∧
        ∀ id, id ∈ ids ↔ c.store.isAlive id ∧ ∃ b' ∈ b :: s.passed, b'.id = id) ∧
    s.toClient = Client.run (calls.filterMap (·.bufferCall?)) ∧
    (∀ id, c.store.handles id =
      (c.handles.map (·.id)).count id + (c.guards.map (·.buffer.id)).count id +
        (c.store.entries.flatMap Entry.held).count id +
        (Task.holdings (s.moment call n).2).buffers.count id) ∧
    ∀ width height format mappable pixels, ∀ b ∈ s.passed,
      b.id ≠ (c.store.insert width height format mappable pixels).1.id := by
  intro s c
  have sound : s.Sound := sound_run width height calls
  have same : s.toClient = Client.run (calls.filterMap (·.bufferCall?)) :=
    toClient_run width height calls
  obtain ⟨balanced, stands⟩ : Client.Holds _ (s.moment call n) :=
    holds_moment (Client.kept_stands s.passed s.ring.ids) ⟨sound.client.balanced, sound.stands⟩
      call n
  have noLayers : Client.Holds (fun c _ => c.store.layerSets = []) (s.toClient, []) :=
    same ▸ Client.kept_noLayers.holds_run rfl _
  refine ⟨?_, fun b owns => ?_, same,
    Client.handles_of_holds (holds_moment Client.kept_noLayers noLayers call n),
    fun _ _ _ _ _ b mem new => ?_⟩
  · rw [DamageRing.trackedCount_eq, stands.length_filter]
  · have alive : c.store.isAlive b.id := decide_eq_true <|
      Store.handles_pos balanced (List.mem_append_right _ owns.mem_held)
    have members := stands.mem_rotateFor alive
    exact ⟨DamageRing.nodup_ids_rotateFor _ _ stands.nodup,
      (members b.id).2 ⟨alive, b, .head _, rfl⟩, members⟩
  · have known := stands.known b mem
    rw [new, Store.buffer?, Store.entry?, Store.insert,
      List.getElem?_eq_none (Nat.le_refl _)] at known
    cases known

/-- One buffer is given up after both were handed in. Its entry is still there, and no longer
counted; the next rotation removes it. -/
theorem given_up_buffer_is_forgotten :
    let gone : Buffer := ⟨⟨0⟩, 10, 10, .argb8888, true⟩
    let keep : Buffer := ⟨⟨1⟩, 10, 10, .argb8888, true⟩
    let s := run 10 10 [.buffer (.create 10 10 .argb8888), .buffer (.create 10 10 .argb8888),
      .rotateFor gone, .rotateFor keep, .rotateFor gone, .buffer (.clone gone),
      .buffer (.drop gone), .addEverything]
    let c := (s.moment (some (.drop gone)) 1).1
    s.ring.ids = [gone.id, keep.id] ∧ s.ring.trackedCount s.store.isAlive = 2 ∧
      s.ring.trackedCount c.store.isAlive = 1 ∧ c.Owns keep ∧
      ∀ id, id ∈ (s.ring.rotateFor c.store.isAlive keep.id).1.ids ↔ id = keep.id := by
  intro gone keep s c
  obtain ⟨count, entries, -⟩ := ring_tracks_the_living 10 10 [.buffer (.create 10 10 .argb8888),
    .buffer (.create 10 10 .argb8888), .rotateFor gone, .rotateFor keep, .rotateFor gone,
    .buffer (.clone gone), .buffer (.drop gone), .addEverything] (some (.drop gone)) 1
  have owns : c.Owns keep := by decide +kernel
  obtain ⟨-, own, members⟩ := entries keep owns
  have passed : s.passed = [gone, keep, gone] := by decide +kernel
  have ended : c.store.isAlive gone.id = false := by decide +kernel
  have one : s.ring.trackedCount c.store.isAlive = 1 := count.trans (by decide +kernel)
  refine ⟨by decide +kernel, by decide +kernel, one, owns, fun id => ?_⟩
  constructor
  · intro listed
    obtain ⟨alive, b, mem, rfl⟩ := (members id).1 listed
    have either : b = keep ∨ b = gone := by
      change b ∈ keep :: s.passed at mem
      rw [passed] at mem
      simpa [or_comm, or_left_comm] using mem
    rcases either with rfl | rfl
    · rfl
    · cases ended.symm.trans alive
  · rintro rfl
    exact own

end RingClient

end Compositor
