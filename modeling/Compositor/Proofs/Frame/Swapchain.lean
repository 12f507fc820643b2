import Compositor.Proofs.DamageRing.Tracking
import Compositor.Proofs.Frame.Parts
import Compositor.Proofs.Store.Cascade

/-!
# Loops that are intact

Between two frames a loop has at least one buffer, all of the size and format it says; its ring is
bounded by that size, and it owns the handles that it thinks it owns. Every call keeps this, and so
does other code that leaves the loop's handles alone.
-/

namespace Compositor

open Compositor.Action

/-- Sides that are positive and that coordinates can express. -/
structure Sized (width height : UInt32) : Prop where
  width_pos : 0 < width.toNat
  height_pos : 0 < height.toNat
  width_le : width.toNat ≤ 2147483647
  height_le : height.toNat ≤ 2147483647

namespace Sized

variable {width height width' height' : UInt32}

theorem ofSize_pos {n : UInt32} (h : 0 < n.toNat) : 0 < Coord.ofSize n := by
  rw [Int32.lt_iff_toInt_lt, Coord.toInt_ofSize, Int32.toInt_zero]
  omega

theorem sides_ne (h : Sized width height) (h' : Sized width' height')
    (apart : (width', height') ≠ (width, height)) :
    (Coord.ofSize width, Coord.ofSize height) ≠ (Coord.ofSize width', Coord.ofSize height') := by
  intro same
  rw [Prod.mk.injEq, ← Int32.toInt_inj, ← Int32.toInt_inj] at same
  simp only [Coord.toInt_ofSize] at same
  obtain ⟨_, _, w, hh⟩ := h
  obtain ⟨_, _, w', hh'⟩ := h'
  refine apart ?_
  rw [Prod.mk.injEq, ← UInt32.toNat_inj, ← UInt32.toNat_inj]
  omega

end Sized

namespace FrameLoop

variable {d d' : FrameLoop} {c : Conditions} {σ σ' : Session} {k : Holding}

/-- The pixels of every buffer of the swapchain. -/
def bounds (d : FrameLoop) : Rect := Rect.ofSize (Coord.ofSize d.width) (Coord.ofSize d.height)

/-- The buffer is one that the loop would make. -/
def Fits (d : FrameLoop) (b : Buffer) : Prop :=
  b.width = d.width ∧ b.height = d.height ∧ b.format = d.swapchain.format

structure Intact (d : FrameLoop) (s : Store) : Prop where
  filled : d.buffers ≠ []
  fits : ∀ b ∈ d.buffers, d.Fits b
  sized : Sized d.width d.height
  sides : d.ring.width = Coord.ofSize d.width ∧ d.ring.height = Coord.ofSize d.height
  owned : ∃ k, s.Balanced (d.holding ++ k)

namespace Intact

variable {s s' : Store}

theorem bounds_ring (intact : d.Intact s) : d.ring.bounds = some d.bounds := by
  obtain ⟨width, height⟩ := intact.sides
  rw [d.ring.bounds_eq_some, width, height]
  · rfl
  · exact width ▸ Sized.ofSize_pos intact.sized.width_pos
  · exact height ▸ Sized.ofSize_pos intact.sized.height_pos

theorem everything_ring (intact : d.Intact s) : d.ring.everything = d.bounds := by
  rw [DamageRing.everything, intact.bounds_ring]
  rfl

/-- Whatever happens to the damage, as long as the bounds stay. -/
theorem ring (intact : d.Intact s) {ring : DamageRing} (width : ring.width = d.ring.width)
    (height : ring.height = d.ring.height) : { d with ring }.Intact s where
  filled := intact.filled
  fits := intact.fits
  sized := intact.sized
  sides := ⟨width.trans intact.sides.1, height.trans intact.sides.2⟩
  owned := intact.owned

theorem damage (intact : d.Intact s) (region : Region) : (d.damage region).Intact s :=
  intact.ring (d.ring.sides_add region).1 (d.ring.sides_add region).2

theorem damageRect (intact : d.Intact s) (rect : Rect) : (d.damageRect rect).Intact s :=
  intact.ring (d.ring.sides_addRect rect).1 (d.ring.sides_addRect rect).2

/-- Other code may do what it likes with handles of its own. -/
theorem other (intact : d.Intact s) (balanced : s'.Balanced (d.holding ++ k)) : d.Intact s' :=
  { intact with owned := ⟨k, balanced⟩ }

end Intact

/-! ## New sizes -/

theorem allocate_ok {config : Swapchain} {width height : UInt32} {n : Nat} {buffers : List Buffer}
    (h : allocate config width height n σ = .ok buffers σ') (balanced : σ.store.Balanced k) :
    buffers.length = n ∧
      (∀ b ∈ buffers, b.width = width ∧ b.height = height ∧ b.format = config.format) ∧
      σ'.store.Balanced (⟨buffers.map (·.id), []⟩ ++ k) := by
  induction n generalizing σ buffers k with
  | zero =>
    obtain ⟨rfl, rfl⟩ := pure_ok h
    exact ⟨rfl, nofun, balanced⟩
  | succ n ih =>
    obtain ⟨b, σ₁, creating, rest⟩ := bind_ok h
    obtain ⟨others, σ₂, allocating, ending⟩ := bind_ok rest
    obtain ⟨rfl, rfl⟩ := pure_ok ending
    obtain ⟨pixels, -, created⟩ := Store.create_ok (withStore_ok creating)
    have balanced₁ := balanced.insert width height config.format true pixels
    rw [← created] at balanced₁
    obtain ⟨rfl, -⟩ := Prod.mk.inj created
    obtain ⟨length, fits, balanced₂⟩ := ih allocating balanced₁
    refine ⟨by rw [List.length_cons, length], ?_, ?_⟩
    · rintro b (_ | ⟨_, mem⟩)
      · exact ⟨rfl, rfl, rfl⟩
      · exact fits b mem
    · exact balanced₂.congr (by simp [Holding.buffers_single, List.count_cons]; omega)
        (by simp [Holding.layers_single])

/-- The loop with new buffers of a new size. -/
def renewed (d : FrameLoop) (width height : UInt32) (buffers : List Buffer) : FrameLoop :=
  { d with
    width, height, buffers
    next := 0
    ring := d.ring.resize (Coord.ofSize width) (Coord.ofSize height) }

/-- Either nothing changes, or all buffers are new. -/
theorem resize_ok {width height : UInt32} (h : d.resize width height σ = .ok d' σ')
    (balanced : σ.store.Balanced (d.holding ++ k)) :
    (d' = d ∧ σ' = σ ∧ (width, height) = (d.width, d.height) ∧ d.buffers ≠ []) ∨
      ((width, height) ≠ (d.width, d.height) ∨ d.buffers = []) ∧
        ∃ buffers, buffers.length = d.swapchain.count ∧ d' = d.renewed width height buffers ∧
          (∀ b ∈ buffers, d'.Fits b) ∧ σ'.store.Balanced (d'.holding ++ k) := by
  unfold resize at h
  by_cases same : (width, height) = (d.width, d.height) ∧ d.buffers ≠ []
  · rw [if_pos same] at h
    obtain ⟨rfl, rfl⟩ := pure_ok h
    exact .inl ⟨rfl, rfl, same⟩
  · rw [if_neg same] at h
    refine .inr ⟨by grind, ?_⟩
    obtain ⟨buffers, σ₁, allocating, h₁⟩ := bind_ok h
    obtain ⟨u, σ₂, disposing, h₂⟩ := bind_ok h₁
    obtain ⟨u, σ₃, noting, h₃⟩ := bind_ok h₂
    obtain ⟨u, σ₄, noting', ending⟩ := bind_ok h₃
    obtain ⟨rfl, rfl⟩ := pure_ok ending
    obtain ⟨length, fits, balanced₁⟩ := allocate_ok allocating balanced
    refine ⟨buffers, length, rfl, fits, ?_⟩
    rw [quiet_note _ noting', quiet_notes _ noting, modifyStore_ok disposing]
    apply Store.Balanced.dispose
    refine balanced₁.congr (fun id => ?_) fun id => ?_
    · simp only [holding, swapchainHolding, Holding.buffers_append, List.count_append]
      omega
    · simp [holding, swapchainHolding]

/-- If the bounds change with the buffers, everything is damaged. -/
theorem intact_renewed {s : Store} {width height : UInt32} (sized : Sized width height)
    {buffers : List Buffer} (length : buffers.length = d.swapchain.count)
    (fits : ∀ b ∈ buffers, (d.renewed width height buffers).Fits b)
    (balanced : s.Balanced ((d.renewed width height buffers).holding ++ k))
    (apart : (d.ring.width, d.ring.height) ≠ (Coord.ofSize width, Coord.ofSize height)) :
    (d.renewed width height buffers).Intact s ∧
      (d.renewed width height buffers).ring.current =
        Region.ofRect (d.renewed width height buffers).bounds := by
  have ring := d.ring.resize_of_ne (Sized.ofSize_pos sized.width_pos)
    (Sized.ofSize_pos sized.height_pos) apart
  have filled : buffers ≠ [] := by
    intro empty
    rw [empty, List.length_nil, Swapchain.count] at length
    omega
  have intact : (d.renewed width height buffers).Intact s :=
    { filled
      fits
      sized
      sides := by
        simp only [renewed, ring]
        exact ⟨rfl, rfl⟩
      owned := ⟨k, balanced⟩ }
  refine ⟨intact, ?_⟩
  rw [← intact.everything_ring]
  simp only [renewed, ring]
  rfl

/-- After a change of size everything is damaged; the same size changes nothing. -/
theorem Intact.resize {width height : UInt32} (intact : d.Intact σ.store)
    (h : d.resize width height σ = .ok d' σ') (sized : Sized width height) :
    d' = d ∧ σ' = σ ∨ d'.Intact σ'.store ∧ d'.ring.current = Region.ofRect d'.bounds := by
  obtain ⟨k, balanced⟩ := intact.owned
  obtain ⟨same, same', -⟩ | ⟨apart, buffers, length, rfl, fits, balanced'⟩ := resize_ok h balanced
  · exact .inl ⟨same, same'⟩
  · right
    refine intact_renewed sized length fits balanced' ?_
    rw [intact.sides.1, intact.sides.2]
    exact intact.sized.sides_ne sized (apart.resolve_right intact.filled)

theorem intact_new {output : OutputId} {width height : UInt32} {swapchain : Swapchain}
    {renderer : Renderer} {display : HeadlessDisplay}
    (h : FrameLoop.new output width height swapchain renderer display σ = .ok d σ')
    (sized : Sized width height) (balanced : σ.store.Balanced (display.config.holding ++ k)) :
    d.Intact σ'.store ∧ d.ring.current = Region.ofRect d.bounds := by
  unfold FrameLoop.new at h
  generalize start : FrameLoop.mk output swapchain 0 0 [] 0 .unbounded renderer display 0 = d₀ at h
  have balanced₀ : σ.store.Balanced (d₀.holding ++ k) := by
    subst start
    rw [holding, Holding.append_assoc]
    exact balanced
  obtain ⟨-, -, -, filled⟩ | ⟨-, buffers, length, rfl, fits, balanced'⟩ := resize_ok h balanced₀
  · exact absurd (by rw [← start]) filled
  · refine intact_renewed sized length fits balanced' ?_
    subst start
    intro same
    have positive := Sized.ofSize_pos sized.width_pos
    rw [← (Prod.mk.inj same).1] at positive
    exact Int32.lt_irrefl positive

/-! ## A frame -/

variable {α : Type} [Scalar α]

/-- How a frame went whose pass was begun, on the buffer `b`. -/
structure Painted (α : Type) [Scalar α] (d : FrameLoop) (c : Conditions)
    (painter : Region → Painting) (σ : Session) (b : Buffer) (d' : FrameLoop) (o : FrameOutcome)
    (σ' : Session) where
  frame : OpenFrame
  /-- The session when the painter begins, and when it has drawn. -/
  before : Session
  after : Session
  drawn : Pass × List PassTally
  begun : d.beginFrame c σ = .ok (d.turned σ.store.isAlive b, .ok frame) before
  draw : (painter frame.damage).draw α frame.pass before = .ok drawn after
  buffer : frame.buffer = b
  damage : frame.damage = (d.ring.rotateFor σ.store.isAlive b.id).2
  reported : o.painted = some (frame.damage, drawn.2)
  closes : Closes (d.turned σ.store.isAlive b) d' (o.result = .ok true)
  pixels_before : before.store.pixels b.id = σ.store.pixels b.id
  pixels_after : σ'.store.pixels b.id = after.store.pixels b.id

/-- A frame keeps the balance, and touches the pixels of no buffer but its own. -/
theorem makeFrame_keeps {painter : Region → Painting} {o : FrameOutcome}
    (h : d.makeFrame α c painter σ = .ok (d', o) σ')
    (balanced : σ.store.Balanced (d.holding ++ k)) :
    ∃ b, d.buffers[d.next]? = some b ∧ σ'.store.Balanced (d'.holding ++ k) ∧
      (∀ id ∈ (d.swapchainHolding ++ k).buffers, id ≠ b.id →
        σ'.store.pixels id = σ.store.pixels id) ∧
      (o.painted = none ∧ d' = (d.turned σ.store.isAlive b).spoiled ∧ σ'.store = σ.store ∨
        Nonempty (Painted α d c painter σ b d' o σ')) := by
  obtain ⟨d₁, opened, σ₁, beginning, ending⟩ := makeFrame_ok h
  obtain ⟨b, found, begun⟩ := beginFrame_result beginning
  have mem : b ∈ d.buffers := List.mem_of_getElem? found
  have owned := mem_holding mem k
  refine ⟨b, found, ?_⟩
  obtain ⟨error, rfl, rfl, rfl, rfl⟩ | ⟨f, p, stats, σ₂, result, rfl, drawing, closing, rfl⟩ :=
    ending
  · obtain ⟨f, impossible, -⟩ | ⟨error, -, spoilt, released⟩ := begun
    · cases impossible
    · have same : σ'.store = σ.store :=
        released.trans (Store.release_retain (Store.handles_pos balanced owned))
      refine ⟨?_, fun id _ _ => by rw [same], .inl ⟨rfl, spoilt, same⟩⟩
      rw [same, spoilt]
      exact balanced
  · obtain ⟨f', same, rfl, rfl, given, granted⟩ | ⟨error, impossible, -⟩ := begun
    · cases same
      have target : f.pass.target = ⟨f.buffer, .readWrite⟩ := (Store.openAccess_ok granted).1
      have before (id : BufferId) : σ₁.store.pixels id = σ.store.pixels id :=
        (Store.pixels_openAccess granted id).trans (Store.keeps_retain _ _ id).pixels
      -- The frame holds its buffer, and its pass holds it once more.
      have held := balanced.retain owned
      have open₁ := held.openAccess (Store.exists_entry held (.head _)) granted
      obtain ⟨target', touches⟩ :=
        draw_touches drawing (.single f.buffer.id ++ (.single f.buffer.id ++ (d.holding ++ k)))
      obtain ⟨open₂, others⟩ := touches open₁
      rw [target] at target' others
      have open₃ : σ₂.store.Balanced (.single p.target.buffer.id ++ (.single f.buffer.id ++
          (d.display.config.holding ++ (d.swapchainHolding ++ k)))) := by
        rw [target']
        rwa [holding, Holding.append_assoc] at open₂
      obtain ⟨closes, closed, pixels⟩ := endFrame_ok closing open₃
      have kept : d'.swapchainHolding = d.swapchainHolding := closes.swapchainHolding
      refine ⟨?_, fun id listed apart => ?_, .inr ⟨?_⟩⟩
      · rwa [holding, kept, Holding.append_assoc]
      · have among : id ∈ (d.holding ++ k).buffers := by
          rw [holding, Holding.append_assoc]
          exact List.mem_append_right _ listed
        rw [pixels id listed, others id (.tail _ (.tail _ among)) apart, before]
      · exact
          { frame := f
            before := σ₁
            after := σ₂
            drawn := (p, stats)
            begun := beginning
            draw := drawing
            buffer := rfl
            damage := given
            reported := rfl
            closes
            pixels_before := before _
            pixels_after := pixels _ (List.mem_append_left _ (List.mem_map_of_mem mem)) }
    · cases impossible

theorem Intact.makeFrame {painter : Region → Painting} {o : FrameOutcome}
    (intact : d.Intact σ.store) (h : d.makeFrame α c painter σ = .ok (d', o) σ') :
    d'.Intact σ'.store := by
  obtain ⟨k, balanced⟩ := intact.owned
  obtain ⟨b, -, balanced', -, ending⟩ := makeFrame_keeps h balanced
  have sides := d.ring.sides_rotateFor σ.store.isAlive b.id
  have shape : ∃ ring display, d' = { d.turned σ.store.isAlive b with ring, display } ∧
      ring.width = d.ring.width ∧ ring.height = d.ring.height := by
    obtain ⟨-, rfl, -⟩ | ⟨⟨painted⟩⟩ := ending
    · exact ⟨_, _, rfl, sides⟩
    · obtain ⟨display, ⟨-, rfl⟩ | ⟨-, rfl⟩⟩ := painted.closes <;> exact ⟨_, _, rfl, sides⟩
  obtain ⟨ring, display, rfl, width, height⟩ := shape
  exact
    { filled := intact.filled
      fits := intact.fits
      sized := intact.sized
      sides := ⟨width.trans intact.sides.1, height.trans intact.sides.2⟩
      owned := ⟨k, balanced'⟩ }

end FrameLoop

end Compositor
