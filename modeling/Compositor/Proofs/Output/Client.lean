import Compositor.Proofs.Output.Commits
import Compositor.Proofs.Output.Staging
import Compositor.Proofs.Store.Operations

/-!
# Programs that set up outputs

A program owns handles of buffers and of layer sets, drafts, requests, configurations and displays,
and calls what these allow. Each of its things has a place of its own, in the order in which it got
them. A call that names no fitting thing cannot be made, so it does nothing. Beside a draft or a
request stand the changes that it was made of; whatever is called, it records exactly these.
-/

namespace Compositor

/-- What a program can do with outputs; things are named by their places. -/
inductive OutputCall where
  | create (width height : UInt32) (format : PixelFormat)
  | createFrom (width height : UInt32) (format : PixelFormat) (pixels : Array UInt8)
  | createUnmappable (width height : UInt32) (format : PixelFormat)
  | stack (layers : List Layer)
  /-- Take a second handle of a buffer or layer set, or make a copy of a draft or a request. A call
  that asks for memory says what there is at that moment. -/
  | copy (i : Nat) (memory : Memory)
  | drop (i : Nat)
  | draft
  | change (i : Nat) (c : Change) (memory : Memory)
  | clear (i : Nat)
  /-- Replace the content of one draft by that of another. -/
  | replace (i source : Nat) (memory : Memory)
  | freeze (i : Nat)
  | reopen (i : Nat)
  | config
  /-- Apply a request to a configuration. -/
  | update (i request : Nat)
  | display (output : OutputId) (acceptsLayers : Bool)
  | test (i request : Nat)
  | commit (i request : Nat)

/-- What a program can own. -/
inductive Owned where
  | handle (b : Buffer)
  | layers (set : LayerSetId)
  /-- A draft, with the changes that were accepted since it was new or last cleared. What is copied
  from another draft comes with the changes of that one. -/
  | draft (d : OutputDraft) (made : List Change)
  | request (r : OutputRequest) (made : List Change)
  | config (c : OutputConfig)
  | display (d : HeadlessDisplay)
  /-- Nothing any more: it was dropped, or went into a commit. -/
  | gone

namespace Owned

def holding : Owned → Holding
  | handle b => ⟨[b.id], []⟩
  | layers set => ⟨[], [set]⟩
  | draft d _ => d.staged.holding
  | request r _ => r.staged.holding
  | config c => c.holding
  | display d => d.config.holding
  | gone => ⟨[], []⟩

def buffer? : Owned → Option Buffer
  | handle b => some b
  | _ => none

def layerSet? : Owned → Option LayerSetId
  | layers set => some set
  | _ => none

end Owned

structure OutputClient where
  store : Store
  owned : List Owned

namespace OutputClient

def start : OutputClient := ⟨Store.empty, []⟩

def gain (p : OutputClient) (thing : Owned) (s : Store) : OutputClient := ⟨s, p.owned ++ [thing]⟩

def put (p : OutputClient) (i : Nat) (thing : Owned) (s : Store) : OutputClient :=
  ⟨s, p.owned.set i thing⟩

/-- The buffers that the program has handles of. -/
def buffers (p : OutputClient) : List Buffer := p.owned.filterMap Owned.buffer?

def layerSets (p : OutputClient) : List LayerSetId := p.owned.filterMap Owned.layerSet?

/-- Whether the program has the handle that a change takes a copy of. -/
def provides (p : OutputClient) : Change → Bool
  | .buffer (some b) => p.buffers.contains b
  | .layers set => p.layerSets.contains set
  | _ => true

/-- Take over a new buffer, if it was made. -/
def keep (p : OutputClient) : Except Fault (Buffer × Store) → OutputClient
  | .ok (b, s) => p.gain (.handle b) s
  | .error _ => p

def step (p : OutputClient) : OutputCall → OutputClient
  | .create width height format => p.keep (p.store.create width height format)
  | .createFrom width height format pixels =>
    p.keep (p.store.createFrom width height format pixels)
  | .createUnmappable width height format =>
    p.keep (.ok (p.store.createUnmappable width height format))
  | .stack layers =>
    if ∀ layer ∈ layers, ∀ b ∈ layer.buffer, b ∈ p.buffers then
      let (set, s) := p.store.insertLayers layers
      p.gain (.layers set) s
    else p
  | .copy i memory =>
    match p.owned[i]? with
    | some (.handle b) => p.gain (.handle b) (p.store.retain b.id)
    | some (.layers set) => p.gain (.layers set) (p.store.retainLayers set)
    | some (.draft d made) =>
      match d.tryClone p.store memory with
      | .ok (d, s) => p.gain (.draft d made) s
      | .error _ => p
    | some (.request r made) =>
      match r.tryClone p.store memory with
      | .ok (r, s) => p.gain (.request r made) s
      | .error _ => p
    | _ => p
  | .drop i =>
    match p.owned[i]? with
    | some thing => p.put i .gone (p.store.dispose thing.holding)
    | none => p
  | .draft => p.gain (.draft .new []) p.store
  | .change i c memory =>
    match p.owned[i]? with
    | some (.draft d made) =>
      if p.provides c then
        match d.attempt p.store c memory with
        | (.ok _, d, s) => p.put i (.draft d (made ++ [c])) s
        | (.error _, d, s) => p.put i (.draft d made) s
      else p
    | _ => p
  | .clear i =>
    match p.owned[i]? with
    | some (.draft d _) =>
      let (d, s) := d.clear p.store
      p.put i (.draft d []) s
    | _ => p
  | .replace i source memory =>
    match p.owned[i]?, p.owned[source]? with
    | some (.draft d made), some (.draft source made') =>
      match d.copyFrom p.store source memory with
      | (.ok _, d, s) => p.put i (.draft d made') s
      | (.error _, d, s) => p.put i (.draft d made) s
    | _, _ => p
  | .freeze i =>
    match p.owned[i]? with
    | some (.draft d made) => p.put i (.request d.freeze made) p.store
    | _ => p
  | .reopen i =>
    match p.owned[i]? with
    | some (.request r made) => p.put i (.draft r.reopen made) p.store
    | _ => p
  | .config => p.gain (.config {}) p.store
  | .update i request =>
    match p.owned[i]?, p.owned[request]? with
    | some (.config c), some (.request r _) =>
      let (c, s) := c.update p.store r
      p.put i (.config c) s
    | _, _ => p
  | .display output acceptsLayers => p.gain (.display (.new output acceptsLayers)) p.store
  | .test i request =>
    match p.owned[i]?, p.owned[request]? with
    | some (.display d), some (.request r _) =>
      let tested := d.test p.store r
      p.put i (.display tested.display) tested.store
    | _, _ => p
  | .commit i request =>
    match p.owned[i]?, p.owned[request]? with
    | some (.display d), some (.request r _) =>
      let (d, answer) := d.commit p.store r
      (p.put request .gone p.store).put i (.display d) answer.store
    | _, _ => p

def run (calls : List OutputCall) : OutputClient := calls.foldl step start

/-! ## What a call does -/

/-- The handles of everything that a program owns. -/
def holdingOf (owned : List Owned) : Holding :=
  ⟨owned.flatMap (·.holding.buffers), owned.flatMap (·.holding.layers)⟩

def holding (p : OutputClient) : Holding := holdingOf p.owned

/-- The ways in which a call changes the store and what the program owns. -/
inductive Moves (p : OutputClient) : OutputClient → Prop
  | idle : Moves p p
  | made {width height : UInt32} {format : PixelFormat} {mappable : Bool} {pixels : Array UInt8}
      (b : Buffer) (s : Store) :
    (b, s) = p.store.insert width height format mappable pixels → Moves p (p.gain (.handle b) s)
  | stacked (layers : List Layer) :
    (∀ layer ∈ layers, ∀ b ∈ layer.buffer, b ∈ p.buffers) →
    Moves p (p.gain (.layers (p.store.insertLayers layers).1) (p.store.insertLayers layers).2)
  | begun (thing : Owned) :
    thing = .draft .new [] ∨ thing = .config {} ∨ (∃ output acceptsLayers,
      thing = .display (.new output acceptsLayers)) →
    Moves p (p.gain thing p.store)
  | copied (thing : Owned) : thing ∈ p.owned →
    Moves p (p.gain thing (p.store.acquire thing.holding))
  | dropped (i : Nat) (thing : Owned) : p.owned[i]? = some thing →
    Moves p (p.put i .gone (p.store.dispose thing.holding))
  | changed (i : Nat) (d d' : OutputDraft) (made : List Change) (c : Change) (memory : Memory) :
    p.owned[i]? = some (.draft d made) → p.provides c = true →
    d.staged.set c memory = .ok d'.staged →
    Moves p (p.put i (.draft d' (made ++ [c]))
      (p.store.exchange d.staged.holding d'.staged.holding))
  | cleared (i : Nat) (d : OutputDraft) (made : List Change) :
    p.owned[i]? = some (.draft d made) →
    Moves p (p.put i (.draft .new [])
      (p.store.exchange d.staged.holding OutputDraft.new.staged.holding))
  | replaced (i : Nat) (d d' : OutputDraft) (made made' : List Change) :
    p.owned[i]? = some (.draft d made) → .draft d' made' ∈ p.owned →
    Moves p (p.put i (.draft d' made') (p.store.exchange d.staged.holding d'.staged.holding))
  | frozen (i : Nat) (d : OutputDraft) (made : List Change) : p.owned[i]? = some (.draft d made) →
    Moves p (p.put i (.request d.freeze made) p.store)
  | reopened (i : Nat) (r : OutputRequest) (made : List Change) :
    p.owned[i]? = some (.request r made) →
    Moves p (p.put i (.draft r.reopen made) p.store)
  | updated (i : Nat) (c : OutputConfig) (r : OutputRequest) (made : List Change) :
    p.owned[i]? = some (.config c) → .request r made ∈ p.owned →
    Moves p (p.put i (.config (c.apply r)) (p.store.exchange c.holding (c.apply r).holding))
  | tested (d : HeadlessDisplay) (r : OutputRequest) :
    Moves p { p with store := (d.test p.store r).store }
  | committed (i j : Nat) (d : HeadlessDisplay) (r : OutputRequest) (made : List Change) :
    p.owned[i]? = some (.display d) → p.owned[j]? = some (.request r made) →
    Moves p ((p.put j .gone p.store).put i (.display (d.commit p.store r).1)
      (d.commit p.store r).2.store)

variable {p p' : OutputClient}

theorem moves_keep {created : Except Fault (Buffer × Store)}
    (shape : ∀ b s, created = .ok (b, s) → ∃ width height format mappable pixels,
      (b, s) = p.store.insert width height format mappable pixels) :
    p.Moves (p.keep created) := by
  cases created with
  | error fault => exact .idle
  | ok new =>
    obtain ⟨width, height, format, mappable, pixels, inserted⟩ := shape new.1 new.2 rfl
    exact .made new.1 new.2 inserted

/-- What stays as it was is nothing new. -/
theorem put_self {i : Nat} {thing : Owned} (found : p.owned[i]? = some thing) :
    p.put i thing p.store = p := by
  obtain ⟨bound, rfl⟩ := List.getElem?_eq_some_iff.1 found
  rw [put, List.set_getElem_self]

section

variable {i : Nat} {d : OutputDraft} {made : List Change}
  (found : p.owned[i]? = some (.draft d made)) (memory : Memory)
include found

theorem moves_change {c : Change} (provided : p.provides c = true) :
    p.Moves (match d.attempt p.store c memory with
      | (.ok _, d, s) => p.put i (.draft d (made ++ [c])) s
      | (.error _, d, s) => p.put i (.draft d made) s) := by
  rcases tried : d.attempt p.store c memory with ⟨result, d', s⟩
  cases result with
  | ok =>
    obtain ⟨set, rfl⟩ := OutputDraft.attempt_ok tried
    exact .changed i d d' made c memory found provided set
  | error cause =>
    obtain ⟨-, rfl, rfl⟩ := OutputDraft.attempt_error tried
    dsimp only
    rw [put_self found]
    exact .idle

theorem moves_replace {j : Nat} {source : OutputDraft} {made' : List Change}
    (there : p.owned[j]? = some (.draft source made')) :
    p.Moves (match d.copyFrom p.store source memory with
      | (.ok _, d, s) => p.put i (.draft d made') s
      | (.error _, d, s) => p.put i (.draft d made) s) := by
  rcases tried : d.copyFrom p.store source memory with ⟨result, d', s⟩
  cases result with
  | ok =>
    obtain ⟨rfl, rfl⟩ := OutputDraft.copyFrom_ok tried
    exact .replaced i d d' made made' found (List.mem_of_getElem? there)
  | error cause =>
    obtain ⟨rfl, rfl⟩ := OutputDraft.copyFrom_error tried
    dsimp only
    rw [put_self found]
    exact .idle

end

theorem moves_test {i : Nat} {d : HeadlessDisplay} (found : p.owned[i]? = some (.display d))
    (r : OutputRequest) :
    p.Moves (p.put i (.display (d.test p.store r).display) (d.test p.store r).store) := by
  have same : p.put i (.display d) (d.test p.store r).store =
      { p.put i (.display d) p.store with store := (d.test p.store r).store } := rfl
  rw [d.display_test, same, put_self found]
  exact .tested d r

theorem step_moves (p : OutputClient) (call : OutputCall) : p.Moves (p.step call) := by
  cases call with
  | create width height format =>
    refine moves_keep fun b s created => ?_
    obtain ⟨pixels, -, same⟩ := Store.create_ok created
    exact ⟨_, _, _, _, pixels, same⟩
  | createFrom width height format pixels =>
    exact moves_keep fun b s created => ⟨_, _, _, _, pixels, (Store.createFrom_ok created).2⟩
  | createUnmappable width height format =>
    exact moves_keep fun b s created => ⟨_, _, _, _, _, (Except.ok.inj created).symm⟩
  | stack layers =>
    simp only [step]
    split
    · rename_i held
      exact .stacked layers held
    · exact .idle
  | copy i memory =>
    simp only [step]
    split
    · rename_i b found
      exact .copied (.handle b) (List.mem_of_getElem? found)
    · rename_i set found
      exact .copied (.layers set) (List.mem_of_getElem? found)
    · rename_i d made found
      cases copied : d.tryClone p.store memory with
      | ok copy =>
        obtain ⟨same, acquired⟩ := OutputDraft.tryClone_ok copied
        dsimp only
        rw [same, acquired]
        exact .copied (.draft d made) (List.mem_of_getElem? found)
      | error cause => exact .idle
    · rename_i r made found
      cases copied : r.tryClone p.store memory with
      | ok copy =>
        obtain ⟨same, acquired⟩ := OutputRequest.tryClone_ok copied
        dsimp only
        rw [same, acquired]
        exact .copied (.request r made) (List.mem_of_getElem? found)
      | error cause => exact .idle
    · exact .idle
  | drop i =>
    simp only [step]
    split
    · rename_i thing found
      exact .dropped i thing found
    · exact .idle
  | draft => exact .begun _ (.inl rfl)
  | config => exact .begun _ (.inr (.inl rfl))
  | display output acceptsLayers => exact .begun _ (.inr (.inr ⟨output, acceptsLayers, rfl⟩))
  | change i c memory =>
    simp only [step]
    split
    · rename_i d made found
      split
      · rename_i provided
        exact moves_change found memory provided
      · exact .idle
    · exact .idle
  | clear i =>
    simp only [step]
    split
    · rename_i d made found
      exact .cleared i d made found
    · exact .idle
  | replace i source memory =>
    simp only [step]
    split
    · rename_i d made d' made' found there
      exact moves_replace found memory there
    · exact .idle
  | freeze i =>
    simp only [step]
    split
    · rename_i d made found
      exact .frozen i d made found
    · exact .idle
  | reopen i =>
    simp only [step]
    split
    · rename_i r made found
      exact .reopened i r made found
    · exact .idle
  | update i request =>
    simp only [step]
    split
    · rename_i c r made found there
      exact .updated i c r made found (List.mem_of_getElem? there)
    · exact .idle
  | test i request =>
    simp only [step]
    split
    · rename_i d r made found there
      exact moves_test found r
    · exact .idle
  | commit i request =>
    simp only [step]
    split
    · rename_i d r made found there
      exact .committed i request d r made found there
    · exact .idle

/-- What holds of a new program and is kept by everything that a call does holds after every run. -/
theorem run_induction {P : OutputClient → Prop} (initial : P start)
    (kept : ∀ {p p'}, p.Moves p' → P p → P p') (calls : List OutputCall) : P (run calls) := by
  unfold run
  generalize start = p at initial
  induction calls generalizing p with
  | nil => exact initial
  | cons call calls ih => exact ih _ (kept (p.step_moves call) initial)

end OutputClient

end Compositor
