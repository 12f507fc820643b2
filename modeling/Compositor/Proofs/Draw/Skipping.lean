import Compositor.Proofs.Draw.Reads

/-!
# Skipped strokes

A texture is skipped if it is not stored, or if an access for reading would be refused: because it
cannot be mapped, because a writer has it, or because it is the destination itself. Between two
strokes a program may open and end accesses, write, and draw in other passes, so whether a texture
is skipped is a question of the time of the call. Nothing is left of a skipped stroke but that it
was counted: without it, everything that follows goes as it went.
-/

namespace Compositor

/-- A call that draws, and the store that it finds. -/
structure DrawCall where
  store : Store
  stroke : Stroke

namespace DrawCall

/-- There is a texture, and it is not stored or an access for reading is refused. -/
def isSkipped (c : DrawCall) : Bool :=
  match c.stroke with
  | .texture d =>
    match d.texture with
    | .stored b => !(c.store.openAccess b .readOnly).isOk
    | .remote _ _ => true
  | .fill _ | .pause _ => false

theorem isSkipped_stored {s : Store} {d : TextureDraw} {b : Buffer}
    (texture : d.texture = .stored b) : isSkipped ⟨s, .texture d⟩ = !s.canRead b := by
  simp only [isSkipped, texture, s.canRead_eq_isOk]

theorem isSkipped_remote {s : Store} {d : TextureDraw} {width height : UInt32}
    (texture : d.texture = .remote width height) : isSkipped ⟨s, .texture d⟩ = true := by
  simp only [isSkipped, texture]

theorem isSkipped_iff {c : DrawCall} : c.isSkipped = true ↔ ∃ d, c.stroke = .texture d ∧
    ∀ b, d.texture = .stored b → ∃ cause, c.store.openAccess b .readOnly = .error cause := by
  obtain ⟨s, stroke⟩ := c
  cases stroke with
  | texture d =>
    cases texture : d.texture with
    | stored b =>
      cases opened : s.openAccess b .readOnly <;>
        simp [isSkipped, texture, opened, Except.isOk, Except.toBool]
    | remote width height => simp [isSkipped, texture]
  | fill d => simp [isSkipped]
  | pause span => simp [isSkipped]

end DrawCall

/-- The call that a stroke is; to let time pass is none. -/
def Stroke.drawCalls (s : Store) : Stroke → List DrawCall
  | .texture d => [⟨s, .texture d⟩]
  | .fill d => [⟨s, .fill d⟩]
  | .pause _ => []

theorem Stroke.eq_of_mem_drawCalls {s : Store} {stroke : Stroke} {c : DrawCall}
    (mem : c ∈ stroke.drawCalls s) : c = ⟨s, stroke⟩ := by
  cases stroke with
  | texture | fill => exact List.mem_singleton.1 mem
  | pause => cases mem

/-! ## Counting -/

/-- Count a call in 32 bits, as skipped or as drawn. -/
def PassTally.count (tally : PassTally) (c : DrawCall) : Except Fault PassTally :=
  if c.isSkipped then tally.leftOut else tally.drawn

open Compositor.Action

namespace Pass

/-- Count calls, each as skipped or as drawn. -/
def tallied (p : Pass) (calls : List DrawCall) : Pass :=
  { p with stats := { ops := p.stats.ops + calls.countP (!·.isSkipped)
                      skipped := p.stats.skipped + calls.countP (·.isSkipped) } }

variable {α : Type} [Scalar α] {p p' : Pass} {σ σ' : Session} {calls calls' : List DrawCall}

@[simp] theorem tallied_nil : p.tallied [] = p := rfl

theorem tallied_append : p.tallied (calls ++ calls') = (p.tallied calls).tallied calls' := by
  simp only [tallied, List.countP_append, Nat.add_assoc]

/-- Each call is counted once. -/
theorem stats_tallied : (p.tallied calls).stats.ops + (p.tallied calls).stats.skipped =
    p.stats.ops + p.stats.skipped + calls.length := by
  have all := calls.length_eq_countP_add_countP (·.isSkipped)
  simp only [Bool.not_eq_true, Bool.decide_eq_false] at all
  simp only [tallied]
  omega

theorem tallied_skipped {c : DrawCall} (skipped : c.isSkipped = true) : p.tallied [c] =
    { p with stats := { p.stats with skipped := p.stats.skipped + 1 } } := by
  simp [tallied, skipped]

theorem tallied_drawn {c : DrawCall} (drawn : c.isSkipped = false) :
    p.tallied [c] = p.counted := by
  simp [tallied, counted, drawn]

theorem count_eq {c : DrawCall} (few : p.stats.ops + p.stats.skipped + 1 < UInt32.size) :
    p.stats.count c = .ok (p.tallied [c]).stats := by
  unfold PassTally.count
  cases skipped : c.isSkipped with
  | true =>
    rw [tallied_skipped skipped]
    exact PassTally.leftOut_eq (by omega)
  | false =>
    rw [tallied_drawn skipped]
    exact PassTally.drawn_eq (by omega)

/-- Counts that fit 32 bits are those of the pass. -/
theorem foldlM_count (few : p.stats.ops + p.stats.skipped + calls.length < UInt32.size) :
    calls.foldlM PassTally.count p.stats = .ok (p.tallied calls).stats := by
  induction calls generalizing p with
  | nil => rfl
  | cons c calls ih =>
    have one := @stats_tallied p [c]
    rw [List.length_cons] at few
    rw [List.length_singleton] at one
    have rest := ih (p := p.tallied [c]) (by omega)
    rw [← tallied_append, List.singleton_append] at rest
    rw [List.foldlM_cons, count_eq (by omega)]
    exact rest

/-- One more is counted as skipped if and only if the stroke is skipped. -/
theorem skipped_tallied_ne_iff {s : Store} {stroke : Stroke} :
    (p.tallied (stroke.drawCalls s)).stats.skipped ≠ p.stats.skipped ↔
      DrawCall.isSkipped ⟨s, stroke⟩ = true := by
  cases stroke with
  | texture d =>
    cases skipped : DrawCall.isSkipped ⟨s, .texture d⟩ <;>
      simp [tallied, Stroke.drawCalls, skipped]
  | fill d => simp [tallied, Stroke.drawCalls, DrawCall.isSkipped]
  | pause span => simp [tallied, Stroke.drawCalls, DrawCall.isSkipped]

/-- A skipped texture is counted, and that is all. -/
theorem drawTexture_skipped {d : TextureDraw}
    (skipped : DrawCall.isSkipped ⟨σ.store, .texture d⟩ = true) :
    ∃ σ', p.drawTexture α d σ = .ok (p.tallied [⟨σ.store, .texture d⟩]) σ' ∧
      σ'.store = σ.store := by
  rw [tallied_skipped skipped]
  cases texture : d.texture with
  | remote width height =>
    rw [drawTexture, texture]
    exact ⟨_, bind_eq_ok rfl rfl, rfl⟩
  | stored b =>
    rw [DrawCall.isSkipped_stored texture, Bool.not_eq_true'] at skipped
    exact drawTexture_refused texture skipped

/-- A texture that is not skipped is counted as drawn. -/
theorem drawTexture_drawn {d : TextureDraw}
    (drawn : DrawCall.isSkipped ⟨σ.store, .texture d⟩ = false)
    (h : p.drawTexture α d σ = .ok p' σ') : p' = p.tallied [⟨σ.store, .texture d⟩] := by
  rw [tallied_drawn drawn]
  cases texture : d.texture with
  | remote width height =>
    rw [DrawCall.isSkipped_remote texture] at drawn
    cases drawn
  | stored b =>
    rw [DrawCall.isSkipped_stored texture, Store.canRead_eq_isOk] at drawn
    rw [drawTexture, texture] at h
    cases opened : σ.store.openAccess b .readOnly with
    | error cause =>
      rw [opened] at drawn
      cases drawn
    | ok access =>
      obtain ⟨_, σ₁, first, rest⟩ := bind_ok h
      cases first.symm.trans (openAccess_eq_ok opened)
      obtain ⟨u, σ₂, painted, rest⟩ := bind_ok rest
      obtain ⟨u, σ₃, closed, rest⟩ := bind_ok rest
      exact (pure_ok rest).1.symm

/-- What a stroke does to the counters. -/
theorem stroke_tallied {stroke : Stroke} (h : p.stroke α stroke σ = .ok p' σ') :
    p' = p.tallied (stroke.drawCalls σ.store) := by
  cases stroke with
  | texture d =>
    cases skipped : DrawCall.isSkipped ⟨σ.store, .texture d⟩ with
    | true =>
      obtain ⟨σ'', done, -⟩ := drawTexture_skipped (α := α) (p := p) skipped
      cases h.symm.trans done
      rfl
    | false => exact drawTexture_drawn skipped h
  | fill d =>
    obtain ⟨u, σ₁, noting, rest⟩ := bind_ok h
    refine Eq.trans ?_ (tallied_drawn rfl).symm
    split at rest
    · obtain ⟨u, σ₂, painted, rest⟩ := bind_ok rest
      exact (pure_ok rest).1.symm
    · exact (pure_ok rest).1.symm
  | pause span =>
    obtain ⟨u, σ₁, passed, rest⟩ := bind_ok h
    exact (pure_ok rest).1.symm

/-- A skipped stroke is counted, and leaves the store as it is, with all pixels and all locks. -/
theorem stroke_skipped {stroke : Stroke} (h : p.stroke α stroke σ = .ok p' σ')
    (skipped : DrawCall.isSkipped ⟨σ.store, stroke⟩ = true) :
    p'.stats = { p.stats with skipped := p.stats.skipped + 1 } ∧ σ'.store = σ.store := by
  obtain ⟨d, rfl, -⟩ := DrawCall.isSkipped_iff.1 skipped
  obtain ⟨σ'', done, same⟩ := drawTexture_skipped (α := α) (p := p) skipped
  cases h.symm.trans done
  exact ⟨congrArg Pass.stats (tallied_skipped skipped), same⟩

/-- A pass that begins has counted nothing. -/
theorem stats_start {r : Renderer} {b : Buffer} (begun : r.start b σ = .ok (.ok p) σ') :
    p.stats = {} := by
  unfold Renderer.start at begun
  split at begun
  · cases begun
  · obtain ⟨opened, σ₁, -, rest⟩ := bind_ok begun
    cases opened with
    | error cause => cases rest
    | ok target =>
      dsimp only at rest
      split at rest
      all_goals
        obtain ⟨started, σ₂, -, rest⟩ := bind_ok rest
        obtain ⟨u, σ₃, -, rest⟩ := bind_ok rest
        cases rest
        rfl

end Pass

/-! ## Calls of a program -/

namespace Studio

variable {α : Type} [Scalar α] {st st' : Studio} {p : Pass} {g : Guard} {call : StudioCall}
  {later : List StudioCall}

/-- The draw that a call does in the pass into a guard, if it does one. -/
def draws (st : Studio) (g : Guard) : StudioCall → List DrawCall
  | .stroke i stroke =>
    if st.writes (.stroke i stroke) = some g then stroke.drawCalls st.store else []
  | .buffer _ | .write _ _ | .startPass _ _ | .finishPass _ | .discardPass _ => []

/-- The draws that some calls do in the pass into a guard, in order. -/
def drawn (α : Type) [Scalar α] (st : Studio) (g : Guard) : List StudioCall → List DrawCall
  | [] => []
  | call :: later => st.draws g call ++ (st.step α call).drawn α g later

/-- The calls without those that are skipped by the pass into a guard. -/
def unskipped (α : Type) [Scalar α] (st : Studio) (g : Guard) : List StudioCall → List StudioCall
  | [] => []
  | call :: later =>
    let rest := (st.step α call).unskipped α g later
    if (st.draws g call).any (·.isSkipped) then rest else call :: rest

theorem length_draws_le (st : Studio) (g : Guard) (call : StudioCall) :
    (st.draws g call).length ≤ 1 := by
  cases call with
  | stroke i stroke =>
    rw [draws]
    split
    · cases stroke <;> simp [Stroke.drawCalls]
    · simp
  | buffer | write | startPass | finishPass | discardPass => simp [draws]

theorem mem_draws {c : DrawCall} (mem : c ∈ st.draws g call) : ∃ i, call = .stroke i c.stroke ∧
    st.writes call = some g ∧ c.store = st.store := by
  cases call with
  | stroke i stroke =>
    rw [draws] at mem
    split at mem
    · rename_i here
      obtain rfl := Stroke.eq_of_mem_drawCalls mem
      exact ⟨i, rfl, here, rfl⟩
    · cases mem
  | buffer | write | startPass | finishPass | discardPass => cases mem

/-- Two programs have the same things in hand, and have passes open on the same destinations. What
they have counted, and what the time is, may differ. -/
structure Alike (st st' : Studio) : Prop where
  client : st'.toClient = st.toClient
  targets : st'.targets = st.targets

namespace Alike

theorem refl (st : Studio) : st.Alike st := ⟨rfl, rfl⟩

theorem sound (alike : st.Alike st') (sound : st.Sound) : st'.Sound where
  client := alike.client ▸ sound.client
  targets := alike.client ▸ alike.targets ▸ sound.targets
  writable := alike.targets ▸ sound.writable

/-- Passes with the same destination are open in the same place. -/
theorem place (alike : st.Alike st') (i : Nat) :
    (st'.passes[i]?).map (·.target) = (st.passes[i]?).map (·.target) := by
  rw [← List.getElem?_map, ← List.getElem?_map]
  exact congrArg (·[i]?) alike.targets

theorem found (alike : st.Alike st') {i : Nat} (found : st.passes[i]? = some p) :
    ∃ p', st'.passes[i]? = some p' ∧ p'.target = p.target := by
  have here := alike.place i
  rwa [found, Option.map_some, Option.map_eq_some_iff] at here

theorem missing (alike : st.Alike st') {i : Nat} (missing : st.passes[i]? = none) :
    st'.passes[i]? = none := by
  have here := alike.place i
  rwa [missing, Option.map_none, Option.map_eq_none_iff] at here

theorem draws (alike : st.Alike st') (g : Guard) (call : StudioCall) :
    st'.draws g call = st.draws g call := by
  cases call with
  | stroke i stroke =>
    have same : st'.writes (.stroke i stroke) = some g ↔
        st.writes (.stroke i stroke) = some g := by
      simp only [writes_stroke, ← Option.map_eq_some_iff, alike.place i, alike.client]
    exact if_congr same (by rw [alike.client]) rfl
  | buffer | write | startPass | finishPass | discardPass => rfl

variable {σ σ' : Session}

theorem resume (alike : st.Alike st') (store : σ'.store = σ.store) :
    (st.resume σ).Alike (st'.resume σ') where
  client := by
    change { st'.toClient with store := σ'.store } = { st.toClient with store := σ.store }
    rw [alike.client, store]
  targets := alike.targets

/-- The same passes begin. -/
theorem startPass (alike : st.Alike st') (r : Renderer) (b : Buffer) :
    (st.step α (.startPass r b)).Alike (st'.step α (.startPass r b)) := by
  have store : st'.session.store = st.session.store := congrArg Client.store alike.client
  by_cases owns : st.Owns b
  · have owns' : st'.Owns b := alike.client ▸ owns
    by_cases granted : b.format ∈ r.formats ∧
        ∃ access, st.session.store.openAccess b .readWrite = .ok access
    · obtain ⟨known, ⟨g, s⟩, opened⟩ := granted
      obtain ⟨p, σ, begun, rfl, rfl⟩ := r.start_opened known opened
      obtain ⟨p', σ', begun', target, after⟩ := r.start_opened known (store ▸ opened)
      simp only [Studio.step, if_pos owns, if_pos owns', begun, begun']
      constructor
      · change { st'.toClient with store := σ'.store, guards := p'.target :: st'.guards } =
          { st.toClient with store := σ.store, guards := p.target :: st.guards }
        rw [alike.client, target, after]
      · exact congrArg₂ List.cons target alike.targets
    · have refused (known : b.format ∈ r.formats) :
          ∃ cause, st.session.store.openAccess b .readWrite = .error cause := by
        cases opened : st.session.store.openAccess b .readWrite with
        | error cause => exact ⟨cause, rfl⟩
        | ok access => exact absurd ⟨known, access, opened⟩ granted
      obtain ⟨error, begun⟩ := r.start_refused refused
      obtain ⟨error', begun'⟩ := r.start_refused (store ▸ refused)
      simp only [Studio.step, if_pos owns, if_pos owns', begun, begun']
      exact alike.resume store
  · have owns' : ¬ st'.Owns b := alike.client ▸ owns
    simp only [Studio.step, if_neg owns, if_neg owns']
    exact alike

theorem stroke [LawfulScalar α] (sound : st.Sound) (alike : st.Alike st') (i : Nat)
    (stroke : Stroke) :
    (st.step α (.stroke i stroke)).Alike (st'.step α (.stroke i stroke)) := by
  cases found : st.passes[i]? with
  | none =>
    simp only [Studio.step, found, alike.missing found]
    exact alike
  | some p =>
    obtain ⟨p', found', same⟩ := alike.found found
    by_cases owned : ∀ b ∈ stroke.textures, st.Owns b
    · have owned' : ∀ b ∈ stroke.textures, st'.Owns b := alike.client ▸ owned
      obtain ⟨q, σ, done, target, inked⟩ :=
        sound.stroke_ok (α := α) (List.mem_of_getElem? found) owned
      obtain ⟨q', σ', done', target', inked'⟩ :=
        (alike.sound sound).stroke_ok (α := α) (List.mem_of_getElem? found') owned'
      have bounds : p'.bounds = p.bounds := congrArg (·.buffer.bounds) same
      rw [Pass.Inked.congr same, bounds, alike.client] at inked'
      simp only [Studio.step, found, found', if_pos owned, if_pos owned', done, done']
      refine ⟨(alike.resume (inked.unique inked')).client, ?_⟩
      exact (targets_set found' target').trans (alike.targets.trans (targets_set found target).symm)
    · have owned' : ¬ ∀ b ∈ stroke.textures, st'.Owns b := alike.client ▸ owned
      simp only [Studio.step, found, found', if_neg owned, if_neg owned']
      exact alike

/-- The same passes end. -/
theorem endPass (alike : st.Alike st') {p' : Pass} (i : Nat) (target : p'.target = p.target)
    (closed : σ.store = st.store.closeAccess p.target)
    (closed' : σ'.store = st'.store.closeAccess p'.target) :
    (st.endPass i p σ).Alike (st'.endPass i p' σ') where
  client := by
    change { st'.toClient with store := σ'.store, guards := st'.guards.erase p'.target } =
      { st.toClient with store := σ.store, guards := st.guards.erase p.target }
    rw [closed, closed', target, alike.client]
  targets := by
    change (st'.passes.eraseIdx i).map (·.target) = (st.passes.eraseIdx i).map (·.target)
    rw [← List.eraseIdx_map, ← List.eraseIdx_map]
    exact congrArg (·.eraseIdx i) alike.targets

/-- A call does alike for programs that are alike. -/
theorem step [LawfulScalar α] (sound : st.Sound) (alike : st.Alike st') (call : StudioCall) :
    (st.step α call).Alike (st'.step α call) := by
  cases call with
  | buffer call =>
    simp only [Studio.step, alike.targets, alike.client]
    split
    · exact ⟨rfl, alike.targets⟩
    · exact alike
  | write g edit =>
    simp only [Studio.step, alike.targets, alike.client]
    split
    · split
      · exact ⟨rfl, alike.targets⟩
      · exact alike
    · exact alike
  | startPass r b => exact alike.startPass r b
  | stroke i stroke => exact alike.stroke sound i stroke
  | finishPass i =>
    cases found : st.passes[i]? with
    | none =>
      simp only [Studio.step, found, alike.missing found]
      exact alike
    | some p =>
      obtain ⟨p', found', target⟩ := alike.found found
      obtain ⟨span, σ, finished⟩ := p.total_finish st.session
      obtain ⟨span', σ', finished'⟩ := p'.total_finish st'.session
      simp only [Studio.step, found, found', finished, finished']
      exact alike.endPass i target (Pass.finish_ok finished) (Pass.finish_ok finished')
  | discardPass i =>
    cases found : st.passes[i]? with
    | none =>
      simp only [Studio.step, found, alike.missing found]
      exact alike
    | some p =>
      obtain ⟨p', found', target⟩ := alike.found found
      simp only [Studio.step, found, found']
      exact alike.endPass i target rfl rfl

end Alike

namespace Sound

/-- A skipped call leaves nothing behind. -/
theorem skipped_alike [LawfulScalar α] (sound : st.Sound)
    (skipped : (st.draws g call).any (·.isSkipped)) :
    (st.step α call).Alike st := by
  obtain ⟨⟨s, stroke⟩, mem, refused⟩ := List.any_eq_true.1 skipped
  obtain ⟨i, rfl, here, rfl⟩ := mem_draws mem
  obtain ⟨owned, p, found, -⟩ := writes_stroke.1 here
  obtain ⟨p', σ, done, target, -⟩ :=
    sound.stroke_ok (α := α) (List.mem_of_getElem? found) owned
  have store : σ.store = st.store := (Pass.stroke_skipped done refused).2
  simp only [Studio.step, found, if_pos owned, done]
  refine ⟨?_, (targets_set found target).symm⟩
  change st.toClient = { st.toClient with store := σ.store }
  rw [store]

/-- Without the skipped calls all goes as it goes with them. -/
theorem runs_unskipped [LawfulScalar α] (sound : st.Sound) (alike : st.Alike st') (g : Guard)
    (later : List StudioCall) : (st.runs α later).Alike (st'.runs α (st.unskipped α g later)) := by
  induction later generalizing st st' with
  | nil => exact alike
  | cons call later ih =>
    have next := (sound.step (α := α) call).1
    rw [unskipped]
    split
    · rename_i skipped
      have still := sound.skipped_alike (α := α) skipped
      exact ih next ⟨alike.client.trans still.client, alike.targets.trans still.targets⟩
    · exact ih next (alike.step sound call)

/-- The draws that are left find the stores that they found. -/
theorem drawn_unskipped [LawfulScalar α] (sound : st.Sound) (alike : st.Alike st') (g : Guard)
    (later : List StudioCall) : st'.drawn α g (st.unskipped α g later) =
      (st.drawn α g later).filter (!·.isSkipped) := by
  induction later generalizing st st' with
  | nil => rfl
  | cons call later ih =>
    have next := (sound.step (α := α) call).1
    rw [unskipped, drawn, List.filter_append]
    split
    · rename_i skipped
      have still := sound.skipped_alike (α := α) skipped
      obtain ⟨c, alone⟩ : ∃ c, st.draws g call = [c] := by
        refine List.length_eq_one_iff.1 (Nat.le_antisymm (st.length_draws_le g call) ?_)
        obtain ⟨c, mem, -⟩ := List.any_eq_true.1 skipped
        exact List.length_pos_of_mem mem
      have refused : c.isSkipped = true := by simpa [alone] using skipped
      rw [ih next ⟨alike.client.trans still.client, alike.targets.trans still.targets⟩, alone,
        List.filter_cons_of_neg (by simp [refused]), List.filter_nil, List.nil_append]
    · rename_i shown
      have all : (st.draws g call).filter (!·.isSkipped) = st.draws g call := by
        simpa [List.filter_eq_self] using shown
      rw [drawn, alike.draws, ih next (alike.step sound call), all]

/-- If the destination of a pass is still in hand after a pass has ended, it was another one. -/
theorem mem_endPass (sound : st.Sound) {q : Pass} {i : Nat} {σ : Session} (mem : p ∈ st.passes)
    (found : st.passes[i]? = some q) (kept : p.target ∈ (st.endPass i q σ).guards) :
    p ∈ (st.endPass i q σ).passes := by
  obtain ⟨j, found'⟩ := List.mem_iff_getElem?.1 mem
  refine List.mem_eraseIdx_iff_getElem?.2 ⟨j, ?_, found'⟩
  intro here
  rw [here, found] at found'
  cases found'
  have few := sound.count_guards_le (sound.holds mem).writable
  have some : 0 < (st.guards.erase p.target).count p.target := List.count_pos_iff.2 kept
  rw [List.count_erase_self] at some
  omega

/-- A stroke is counted by the pass that it is done in, and by no other. -/
theorem tallied_stroke [LawfulScalar α] (sound : st.Sound) {q : Pass} {i : Nat} {stroke : Stroke}
    (mem : p ∈ st.passes) (found : st.passes[i]? = some q)
    (owned : ∀ b ∈ stroke.textures, st.Owns b) :
    p.tallied (st.draws p.target (.stroke i stroke)) ∈ (st.step α (.stroke i stroke)).passes := by
  have mem' := List.mem_of_getElem? found
  obtain ⟨q', σ, done, -⟩ := sound.stroke_ok (α := α) mem' owned
  simp only [Studio.step, found, if_pos owned, done]
  by_cases same : q.target = p.target
  · obtain rfl := sound.pass_eq mem mem' same
    have here : st.writes (.stroke i stroke) = some q.target :=
      writes_stroke.2 ⟨owned, q, found, rfl⟩
    obtain ⟨bound, -⟩ := List.getElem?_eq_some_iff.1 found
    rw [draws, if_pos here]
    obtain rfl := Pass.stroke_tallied done
    exact List.mem_set bound _
  · have elsewhere : st.writes (.stroke i stroke) ≠ some p.target := by
      simpa [writes_stroke, found] using fun _ => same
    obtain ⟨j, found'⟩ := List.mem_iff_getElem?.1 mem
    have apart : i ≠ j := by
      rintro rfl
      cases found.symm.trans found'
      exact same rfl
    rw [draws, if_neg elsewhere, Pass.tallied_nil]
    exact List.mem_of_getElem? ((List.getElem?_set_ne apart).trans found')

/-- While its destination is in hand, a pass is open, and has counted what was drawn in it. -/
theorem tallied_step [LawfulScalar α] (sound : st.Sound) (mem : p ∈ st.passes)
    (kept : p.target ∈ (st.step α call).guards) :
    p.tallied (st.draws p.target call) ∈ (st.step α call).passes := by
  cases call with
  | buffer call =>
    simp only [Studio.step, draws, Pass.tallied_nil]
    split <;> exact mem
  | write g edit =>
    simp only [Studio.step, draws, Pass.tallied_nil]
    split
    · split <;> exact mem
    · exact mem
  | startPass r b =>
    simp only [Studio.step, draws, Pass.tallied_nil]
    split
    · split
      · exact List.mem_cons_of_mem _ mem
      · exact mem
      · exact mem
    · exact mem
  | stroke i stroke =>
    cases found : st.passes[i]? with
    | none =>
      have idle : st.writes (.stroke i stroke) ≠ some p.target := by
        simp [writes_stroke, found]
      simp only [Studio.step, found, draws, if_neg idle]
      exact mem
    | some q =>
      by_cases owned : ∀ b ∈ stroke.textures, st.Owns b
      · exact sound.tallied_stroke mem found owned
      · have idle : st.writes (.stroke i stroke) ≠ some p.target :=
          fun writes => owned (writes_stroke.1 writes).1
        simp only [Studio.step, found, if_neg owned, draws, if_neg idle]
        exact mem
  | finishPass i =>
    simp only [Studio.step, draws, Pass.tallied_nil] at kept ⊢
    cases found : st.passes[i]? with
    | none => exact mem
    | some q =>
      obtain ⟨span, σ, finished⟩ := q.total_finish st.session
      simp only [found, finished] at kept ⊢
      exact sound.mem_endPass mem found kept
  | discardPass i =>
    simp only [Studio.step, draws, Pass.tallied_nil] at kept ⊢
    cases found : st.passes[i]? with
    | none => exact mem
    | some q =>
      simp only [found] at kept ⊢
      exact sound.mem_endPass mem found kept

theorem tallied_runs [LawfulScalar α] (sound : st.Sound) (mem : p ∈ st.passes)
    (keeps : st.Keeps α p.target later) :
    p.tallied (st.drawn α p.target later) ∈ (st.runs α later).passes := by
  induction later generalizing st p with
  | nil => exact mem
  | cons call later ih =>
    obtain ⟨-, keeps⟩ := keeps_cons.1 keeps
    rw [drawn, Pass.tallied_append]
    exact ih (sound.step call).1 (sound.tallied_step mem (keeps 0)) keeps

end Sound

/-- A stroke never breaks off in an open pass, and it is skipped if and only if it has a texture
that is not stored or that an access for reading is refused to. A skipped stroke is counted, and
nothing else changes: no pixel, no lock. Whatever the program calls next, it ends with the same
store, the same destination in it, and with the same guards and handles, if the skipped strokes of
the pass are left out; those that are left find the stores that they found. Meanwhile the pass
counts each stroke once, from nothing when it begins, the skipped ones as skipped and the others as
drawn; and counters of 32 bits count the same as long as there are not too many strokes for them. -/
theorem skipped_strokes_leave_no_trace (α : Type) [Scalar α] [LawfulScalar α] (clock : Clock)
    (calls : List StudioCall) {p : Pass} (mem : p ∈ ((start clock).runs α calls).passes) :
    let st := (start clock).runs α calls
    (∀ stroke, (∀ b ∈ stroke.textures, st.Owns b) → ∃ p' σ,
      p.stroke α stroke st.session = .ok p' σ ∧ p'.target = p.target ∧
      (p'.stats.skipped ≠ p.stats.skipped ↔ ∃ d, stroke = .texture d ∧
        ∀ b, d.texture = .stored b → ∃ cause, st.store.openAccess b .readOnly = .error cause) ∧
      (p'.stats.skipped ≠ p.stats.skipped →
        p'.stats = { p.stats with skipped := p.stats.skipped + 1 } ∧ σ.store = st.store)) ∧
    (∀ later, (st.runs α (st.unskipped α p.target later)).toClient = (st.runs α later).toClient ∧
      st.drawn α p.target (st.unskipped α p.target later) =
        (st.drawn α p.target later).filter (!·.isSkipped)) ∧
    (∀ (r : Renderer) b q σ, r.start b st.session = .ok (.ok q) σ → q.stats = {}) ∧
    ∀ later, st.Keeps α p.target later → ∃ q ∈ (st.runs α later).passes, q.target = p.target ∧
      q.stats.skipped = p.stats.skipped + (st.drawn α p.target later).countP (·.isSkipped) ∧
      q.stats.ops + q.stats.skipped =
        p.stats.ops + p.stats.skipped + (st.drawn α p.target later).length ∧
      (p.stats.ops + p.stats.skipped + (st.drawn α p.target later).length < UInt32.size →
        (st.drawn α p.target later).foldlM PassTally.count p.stats = .ok q.stats) := by
  intro st
  have sound : st.Sound := (sound_start clock).runs calls
  refine ⟨fun stroke owned => ?stroke, fun later => ⟨?left, ?found⟩,
    fun r b q σ => Pass.stats_start, fun later keeps => ?counts⟩
  case stroke =>
    obtain ⟨p', σ, done, target, -⟩ := sound.stroke_ok (α := α) mem owned
    have skips : p'.stats.skipped ≠ p.stats.skipped ↔
        DrawCall.isSkipped ⟨st.store, stroke⟩ = true := by
      rw [Pass.stroke_tallied done]
      exact Pass.skipped_tallied_ne_iff
    exact ⟨p', σ, done, target, skips.trans DrawCall.isSkipped_iff,
      fun more => Pass.stroke_skipped done (skips.1 more)⟩
  case left => exact (sound.runs_unskipped (.refl st) p.target later).client
  case found => exact sound.drawn_unskipped (.refl st) p.target later
  case counts =>
    exact ⟨_, sound.tallied_runs mem keeps, rfl, rfl, Pass.stats_tallied, Pass.foldlM_count⟩

/-- Into one buffer are drawn a texture that is not stored, one that cannot be mapped, one that is
still being written, and the buffer itself; these four are skipped. What is drawn once the writer
has ended is not. -/
theorem only_finished_texture_is_drawn :
    let b (i : Nat) : Buffer := ⟨⟨i⟩, 1, 1, .argb8888, i ≠ 2⟩
    let draw (texture : Texture) : StudioCall := .stroke 0 (.texture { texture })
    let sevens : StudioCall := .write ⟨b 1, .readWrite⟩
      ⟨fun bytes => Array.replicate bytes.size 7, fun _ => Array.size_replicate⟩
    let st := (start default).runs Rat [.buffer (.create 1 1 .argb8888),
      .buffer (.create 1 1 .argb8888), .buffer (.createUnmappable 1 1 .argb8888),
      .buffer (.openAccess (b 1) .readWrite), .startPass {} (b 0)]
    let later : List StudioCall := [draw (.remote 1 1), draw (.stored (b 2)), sevens,
      draw (.stored (b 1)), draw (.stored (b 0)), .buffer (.closeAccess ⟨b 1, .readWrite⟩),
      draw (.stored (b 1))]
    let p : Pass := ⟨⟨b 0, .readWrite⟩, none, {}⟩
    p ∈ st.passes ∧ st.Keeps Rat p.target later ∧
      (st.unskipped Rat p.target later).length = 3 ∧
      (st.runs Rat (st.unskipped Rat p.target later)).toClient = (st.runs Rat later).toClient ∧
      (∃ q ∈ (st.runs Rat later).passes, q.target = p.target ∧ q.stats.ops = 1 ∧
        q.stats.skipped = 4 ∧
        (st.drawn Rat p.target later).foldlM PassTally.count {} = .ok q.stats) ∧
      (st.runs Rat later).store.pixels ⟨0⟩ = #[7, 7, 7, 7] := by
  intro b draw sevens st later p
  have begun : st.passes[0]? = some p := by rfl
  have keeps : st.Keeps Rat p.target later := by decide +kernel
  have mem := List.mem_of_getElem? begun
  obtain ⟨-, left, -, counts⟩ := skipped_strokes_leave_no_trace Rat default _ mem
  obtain ⟨q, mem', target, skipped, all, word⟩ := counts later keeps
  have calls : (st.drawn Rat p.target later).countP (·.isSkipped) = 4 ∧
      (st.drawn Rat p.target later).length = 5 := by decide +kernel
  have four : q.stats.skipped = 4 := skipped.trans (congrArg (0 + ·) calls.1)
  have five : q.stats.ops + q.stats.skipped = 5 := all.trans (congrArg (0 + 0 + ·) calls.2)
  have few : 0 + 0 + (st.drawn Rat p.target later).length < UInt32.size := by
    rw [calls.2]
    decide
  exact ⟨mem, keeps, by decide +kernel, (left later).1,
    ⟨q, mem', target, by omega, four, word few⟩, by decide +kernel⟩

end Studio

end Compositor
