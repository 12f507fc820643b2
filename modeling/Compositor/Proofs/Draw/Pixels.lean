import Compositor.Draw.Paint
import Compositor.Proofs.Region.Recipe
import Mathlib.Data.List.Basic

/-!
# Painting, pixel by pixel

The bytes of a buffer are its pixels row by row, four bytes each, so the bytes of different pixels
are apart. What is drawn puts inks on pixels, one after the other: an ink is a colour and how it
meets the colour below. Painting a region puts an ink on a pixel each time that a walk over the
region meets the pixel, and none on other pixels.
-/

namespace Compositor

/-! ## Where pixels lie -/

namespace Buffer

variable {b : Buffer} {p q : Point}

/-- The number of bytes that the pixels take. -/
def size (b : Buffer) : Nat := b.width.toNat * b.height.toNat * PixelFormat.bytesPerPixel

/-- Where the bytes of a pixel begin. -/
def offset (b : Buffer) (p : Point) : Nat :=
  p.y.toInt.toNat * b.stride + p.x.toInt.toNat * PixelFormat.bytesPerPixel

theorem edges_of_contains (inside : b.bounds.contains p) :
    0 ≤ p.x.toInt ∧ p.x.toInt < b.width.toNat ∧ 0 ≤ p.y.toInt ∧ p.y.toInt < b.height.toNat := by
  have zero : (0 : Coord).toInt = 0 := rfl
  rw [bounds, Rect.contains_iff, Rect.toInt_right, Rect.toInt_bottom] at inside
  simp only [Rect.ofSize, Coord.toInt_ofSize, zero] at inside
  omega

theorem offset_add_le (inside : b.bounds.contains p) : b.offset p + 4 ≤ b.size := by
  obtain ⟨_, column, _, row⟩ := edges_of_contains inside
  have rows : (p.y.toInt.toNat + 1) * b.width.toNat ≤ b.height.toNat * b.width.toNat :=
    Nat.mul_le_mul_right _ (by omega)
  rw [Nat.succ_mul, Nat.mul_comm b.height.toNat] at rows
  rw [offset, size, stride, PixelFormat.bytesPerPixel, ← Nat.mul_assoc]
  omega

/-- A pixel of an earlier row, or of the same row and further left, comes first. -/
theorem offset_lt (inside : b.bounds.contains p)
    (earlier : p.y.toInt < q.y.toInt ∨ p.y.toInt = q.y.toInt ∧ p.x.toInt < q.x.toInt) :
    b.offset p + 4 ≤ b.offset q := by
  obtain ⟨_, column, _, _⟩ := edges_of_contains inside
  rw [offset, offset, stride, PixelFormat.bytesPerPixel, ← Nat.mul_assoc, ← Nat.mul_assoc]
  rcases earlier with above | ⟨same, left⟩
  · have rows : (p.y.toInt.toNat + 1) * b.width.toNat ≤ q.y.toInt.toNat * b.width.toNat :=
      Nat.mul_le_mul_right _ (by omega)
    rw [Nat.succ_mul] at rows
    omega
  · rw [same]
    omega

theorem offset_apart (insideP : b.bounds.contains p) (insideQ : b.bounds.contains q)
    (apart : p ≠ q) : b.offset p + 4 ≤ b.offset q ∨ b.offset q + 4 ≤ b.offset p := by
  have column (same : p.y.toInt = q.y.toInt) : p.x.toInt ≠ q.x.toInt :=
    fun same' => apart (Point.ext_toInt same' same)
  rcases Int.lt_trichotomy p.y.toInt q.y.toInt with above | same | below
  · exact .inl (offset_lt insideP (.inl above))
  · rcases Int.lt_or_gt_of_ne (column same) with left | right
    · exact .inl (offset_lt insideP (.inr ⟨same, left⟩))
    · exact .inr (offset_lt insideQ (.inr ⟨same.symm, right⟩))
  · exact .inr (offset_lt insideQ (.inl below))

end Buffer

/-! ## Reading and writing -/

/-- The four bytes from an offset on. -/
def bytesAt (bytes : Array UInt8) (offset : Nat) : UInt8 × UInt8 × UInt8 × UInt8 :=
  (bytes.getD offset 0, bytes.getD (offset + 1) 0, bytes.getD (offset + 2) 0,
    bytes.getD (offset + 3) 0)

theorem bytesAt_congr {bytes bytes' : Array UInt8} {offset : Nat}
    (same : ∀ i < 4, bytes'[offset + i]? = bytes[offset + i]?) :
    bytesAt bytes' offset = bytesAt bytes offset := by
  have first := same 0 (by omega)
  simp only [bytesAt, Array.getD_eq_getD_getElem?, same 1 (by omega), same 2 (by omega),
    same 3 (by omega)]
  rw [Nat.add_zero] at first
  rw [first]

/-- Four bytes that agree together agree one by one. -/
theorem getElem?_of_bytesAt {bytes bytes' : Array UInt8} {offset k : Nat}
    (size : bytes'.size = bytes.size) (same : bytesAt bytes' offset = bytesAt bytes offset)
    (here : offset ≤ k ∧ k < offset + 4) : bytes'[k]? = bytes[k]? := by
  simp only [bytesAt, Prod.mk.injEq] at same
  obtain ⟨first, second, third, fourth⟩ := same
  have value : bytes'.getD k 0 = bytes.getD k 0 := by
    obtain rfl | rfl | rfl | rfl :
        k = offset ∨ k = offset + 1 ∨ k = offset + 2 ∨ k = offset + 3 := by omega
    all_goals assumption
  by_cases inside : k < bytes.size
  · have inside' : k < bytes'.size := size ▸ inside
    rw [← Array.getElem_eq_getD (h := inside), ← Array.getElem_eq_getD (h := inside')] at value
    rw [Array.getElem?_eq_getElem inside, Array.getElem?_eq_getElem inside', value]
  · rw [Array.getElem?_eq_none (by omega), Array.getElem?_eq_none (by omega)]

namespace PixelFormat

variable {f : PixelFormat} {bytes : Array UInt8} {offset : Nat}

theorem read_eq (inside : offset + 4 ≤ bytes.size) :
    f.read bytes offset = .ok (f.decode (bytesAt bytes offset)) := by
  have known (i : Nat) (low : i < 4) : bytes.getD (offset + i) 0 = bytes[offset + i] :=
    (Array.getElem_eq_getD 0).symm
  rw [read, dif_pos inside, bytesAt, known 1 (by omega), known 2 (by omega), known 3 (by omega)]
  exact congrArg (fun first => Except.ok (f.decode (first, _, _, _))) (known 0 (by omega)).symm

theorem write_eq (inside : offset + 4 ≤ bytes.size) (c : Rgba8) :
    ∃ result, f.write bytes offset c = .ok result ∧ result.size = bytes.size ∧
      bytesAt result offset = f.encode c ∧
      ∀ k, k < offset ∨ offset + 4 ≤ k → result[k]? = bytes[k]? := by
  rcases encoded : f.encode c with ⟨p, q, s, t⟩
  refine ⟨(((bytes.setIfInBounds offset p).setIfInBounds (offset + 1) q).setIfInBounds
    (offset + 2) s).setIfInBounds (offset + 3) t, ?_, by simp, ?_, fun k outside => ?_⟩
  · rw [write, if_pos inside, encoded]
  · simp only [bytesAt, Array.getD_eq_getD_getElem?, Array.getElem?_setIfInBounds,
      Array.size_setIfInBounds]
    simp [show offset < bytes.size by omega, show offset + 1 < bytes.size by omega,
      show offset + 2 < bytes.size by omega, show offset + 3 < bytes.size by omega]
  · simp only [Array.getElem?_setIfInBounds, Array.size_setIfInBounds]
    rw [if_neg (by omega), if_neg (by omega), if_neg (by omega), if_neg (by omega)]

end PixelFormat

/-- The bytes of a buffer as an image. -/
def Buffer.image (b : Buffer) (bytes : Array UInt8) : Image := ⟨b.format, b.stride, bytes⟩

namespace Image

variable {b : Buffer} {bytes : Array UInt8} {p : Point}

theorem offset_image (inside : b.bounds.contains p) :
    (b.image bytes).offset p = .ok (b.offset p) := by
  obtain ⟨column, _, row, _⟩ := Buffer.edges_of_contains inside
  have quadrant : 0 ≤ p.x ∧ 0 ≤ p.y := by
    rw [Int32.le_iff_toInt_le, Int32.le_iff_toInt_le]
    exact ⟨column, row⟩
  rw [offset, if_pos quadrant]
  rfl

theorem get_image (size : bytes.size = b.size) (inside : b.bounds.contains p) :
    (b.image bytes).get p = .ok (b.format.decode (bytesAt bytes (b.offset p))) := by
  have fits := size ▸ Buffer.offset_add_le inside
  rw [get, offset_image inside]
  exact PixelFormat.read_eq fits

theorem set_image (size : bytes.size = b.size) (inside : b.bounds.contains p) (c : Rgba8) :
    ∃ result, (b.image bytes).set p c = .ok (b.image result) ∧ result.size = bytes.size ∧
      bytesAt result (b.offset p) = b.format.encode c ∧
      ∀ k, k < b.offset p ∨ b.offset p + 4 ≤ k → result[k]? = bytes[k]? := by
  have fits := size ▸ Buffer.offset_add_le inside
  obtain ⟨result, written, size', here, others⟩ := PixelFormat.write_eq (f := b.format) fits c
  refine ⟨result, ?_, size', here, others⟩
  rw [set, offset_image inside]
  change (do return { b.image bytes with bytes := ← b.format.write bytes (b.offset p) c }) = _
  rw [written]
  rfl

end Image

/-! ## Inks -/

/-- A colour, and how it meets the colour below. -/
abbrev Ink := Blend × Rgba8

/-- The bytes of a pixel after some inks, the first one lowest. -/
def PixelFormat.inked (f : PixelFormat) (old : UInt8 × UInt8 × UInt8 × UInt8) (inks : List Ink) :
    UInt8 × UInt8 × UInt8 × UInt8 :=
  inks.foldl (fun below ink => f.encode (ink.1.apply ink.2 (f.decode below))) old

/-- Of inks that replace what is below them the last one is left. -/
theorem PixelFormat.inked_replicate (f : PixelFormat) (old : UInt8 × UInt8 × UInt8 × UInt8)
    (c : Rgba8) {n : Nat} (met : 0 < n) :
    f.inked old (List.replicate n [(Blend.none, c)]).flatten = f.encode c := by
  obtain ⟨n, rfl⟩ := Nat.exists_eq_succ_of_ne_zero (Nat.ne_of_gt met)
  rw [List.replicate_succ', List.flatten_append, inked, List.foldl_append]
  rfl

/-- A byte belongs to a pixel or to none. -/
theorem Buffer.getElem?_of_pixels {b : Buffer} {bytes bytes' : Array UInt8} {k : Nat}
    (size : bytes'.size = bytes.size)
    (pixels : ∀ p, b.bounds.contains p → b.offset p ≤ k ∧ k < b.offset p + 4 →
      bytesAt bytes' (b.offset p) = bytesAt bytes (b.offset p))
    (others : (∀ p, b.bounds.contains p → k < b.offset p ∨ b.offset p + 4 ≤ k) →
      bytes'[k]? = bytes[k]?) : bytes'[k]? = bytes[k]? := by
  by_cases met : ∃ p, b.bounds.contains p ∧ b.offset p ≤ k ∧ k < b.offset p + 4
  · obtain ⟨p, inside, here⟩ := met
    exact getElem?_of_bytesAt size (pixels p inside here) here
  · refine others fun p inside => ?_
    by_contra here
    exact met ⟨p, inside, by omega⟩

/-- Every pixel took its inks, and nothing else changed. -/
structure Buffer.Takes (b : Buffer) (inks : Point → List Ink) (bytes bytes' : Array UInt8) :
    Prop where
  size : bytes'.size = bytes.size
  pixel : ∀ p, b.bounds.contains p →
    bytesAt bytes' (b.offset p) = b.format.inked (bytesAt bytes (b.offset p)) (inks p)
  others : ∀ k, (∀ p, b.bounds.contains p → k < b.offset p ∨ b.offset p + 4 ≤ k) →
    bytes'[k]? = bytes[k]?

namespace Buffer.Takes

variable {b : Buffer} {inks inks' : Point → List Ink} {bytes bytes' bytes'' : Array UInt8}

theorem none (b : Buffer) (bytes : Array UInt8) : b.Takes (fun _ => []) bytes bytes :=
  ⟨rfl, fun _ _ => rfl, fun _ _ => rfl⟩

theorem append (first : b.Takes inks bytes bytes') (second : b.Takes inks' bytes' bytes'') :
    b.Takes (fun p => inks p ++ inks' p) bytes bytes'' where
  size := second.size.trans first.size
  pixel p inside := by
    rw [second.pixel p inside, first.pixel p inside, PixelFormat.inked, PixelFormat.inked,
      PixelFormat.inked, List.foldl_append]
  others k apart := (second.others k apart).trans (first.others k apart)

/-- Bytes that belong to no pixel that takes an ink stay. -/
theorem kept (takes : b.Takes inks bytes bytes') {k : Nat}
    (apart : ∀ p, b.bounds.contains p → inks p ≠ [] → k < b.offset p ∨ b.offset p + 4 ≤ k) :
    bytes'[k]? = bytes[k]? := by
  refine getElem?_of_pixels takes.size (fun p inside here => ?_) (takes.others k)
  have silent : inks p = [] := by
    by_contra some
    rcases apart p inside some with before | behind <;> omega
  have same := takes.pixel p inside
  rwa [silent] at same

/-- The bytes after some inks are determined by the inks. -/
theorem unique (first : b.Takes inks bytes bytes') (second : b.Takes inks bytes bytes'') :
    bytes'' = bytes' :=
  Array.ext_getElem? fun k => getElem?_of_pixels (second.size.trans first.size.symm)
    (fun p inside _ => (second.pixel p inside).trans (first.pixel p inside).symm)
    fun apart => (second.others k apart).trans (first.others k apart).symm

end Buffer.Takes

/-- The ink that a shade gives a point, if it gives one. -/
def Shade.ink (shade : Shade) (mode : Blend) (p : Point) : List Ink :=
  match shade p with
  | .ok (some c) => [(mode, c)]
  | .ok none | .error _ => []

namespace Image

variable {b : Buffer} {bytes : Array UInt8} {shade : Shade} {p : Point}

theorem paintPoint_takes (mode : Blend) (size : bytes.size = b.size) (inside : b.bounds.contains p)
    (shaded : ∃ c, shade p = .ok c) :
    ∃ bytes', paintPoint mode shade (b.image bytes) p = .ok (b.image bytes') ∧
      b.Takes (fun q => if q = p then shade.ink mode p else []) bytes bytes' := by
  obtain ⟨_ | c, shaded⟩ := shaded
  · refine ⟨bytes, ?_, ?_⟩
    · rw [paintPoint, shaded]
      rfl
    · have silent : shade.ink mode p = [] := by rw [Shade.ink, shaded]
      rw [silent]
      simpa using Buffer.Takes.none b bytes
  · obtain ⟨bytes', written, size', here, others⟩ := set_image size inside
      (mode.apply c (b.format.decode (bytesAt bytes (b.offset p))))
    have single : shade.ink mode p = [(mode, c)] := by rw [Shade.ink, shaded]
    refine ⟨bytes', ?_, size', fun q insideQ => ?_, fun k apart => others k (apart p inside)⟩
    · rw [paintPoint, shaded]
      change (do (b.image bytes).set p (mode.apply c (← (b.image bytes).get p))) = _
      rw [get_image size inside]
      exact written
    · split
      · rename_i same
        rw [same, here, single]
        rfl
      · rename_i differ
        refine bytesAt_congr fun i low => others _ ?_
        rcases Buffer.offset_apart insideQ inside differ with before | behind <;> omega

/-- A pixel takes the ink of a shade as often as a walk meets it. -/
theorem foldlM_paintPoint (mode : Blend) (size : bytes.size = b.size) {points : List Point}
    (inside : ∀ p ∈ points, b.bounds.contains p) (shaded : ∀ p ∈ points, ∃ c, shade p = .ok c) :
    ∃ bytes', points.foldlM (paintPoint mode shade) (b.image bytes) = .ok (b.image bytes') ∧
      b.Takes (fun q => (List.replicate (points.count q) (shade.ink mode q)).flatten)
        bytes bytes' := by
  induction points generalizing bytes with
  | nil => exact ⟨bytes, rfl, by simpa using Buffer.Takes.none b bytes⟩
  | cons p points ih =>
    rw [List.forall_mem_cons] at inside shaded
    obtain ⟨bytes₁, painted, first⟩ := paintPoint_takes mode size inside.1 shaded.1
    obtain ⟨bytes₂, walked, rest⟩ := ih (first.size.trans size) inside.2 shaded.2
    refine ⟨bytes₂, ?_, ?_⟩
    · rw [List.foldlM_cons, painted]
      exact walked
    · have both := first.append rest
      have same (q : Point) : (if q = p then shade.ink mode p else []) ++
          (List.replicate (points.count q) (shade.ink mode q)).flatten =
            (List.replicate ((p :: points).count q) (shade.ink mode q)).flatten := by
        by_cases here : q = p
        · subst here
          rw [if_pos rfl, List.count_cons_self, List.replicate_succ, List.flatten_cons]
        · rw [if_neg here, List.count_cons_of_ne (Ne.symm here), List.nil_append]
      rwa [funext same] at both

theorem paint_congr {mode : Blend} {shade shade' : Shade} {region : Region}
    (same : ∀ p, region.contains p → shade p = shade' p) (image : Image) :
    image.paint mode shade region = image.paint mode shade' region := by
  rw [paint, paint, List.foldlM_eq_foldl, List.foldlM_eq_foldl]
  refine List.foldl_ext _ _ _ fun below p mem => ?_
  simp only [paintPoint, same p (Region.mem_points.1 mem)]

/-- There is nothing to paint on an empty region. -/
theorem paint_empty {region : Region} (empty : region.isEmpty = true) (image : Image) (mode : Blend)
    (shade : Shade) : image.paint mode shade region = .ok image := by
  rw [Region.isEmpty, List.isEmpty_iff] at empty
  rw [paint, Region.points, empty]
  rfl

/-- Painting a region puts the ink of a shade on a pixel as often as its walk meets the pixel. -/
theorem paint_walks (mode : Blend) (size : bytes.size = b.size) {region : Region}
    (inside : ∀ p, region.contains p → b.bounds.contains p)
    (shaded : ∀ p, region.contains p → ∃ c, shade p = .ok c) :
    ∃ bytes', (b.image bytes).paint mode shade region = .ok (b.image bytes') ∧
      b.Takes (fun q => (List.replicate (region.points.count q) (shade.ink mode q)).flatten)
        bytes bytes' :=
  foldlM_paintPoint mode size (fun p mem => inside p (Region.mem_points.1 mem))
    fun p mem => shaded p (Region.mem_points.1 mem)

/-- Painting without blending leaves the colours of the shade, however often it meets a pixel. -/
theorem paint_replaces (size : bytes.size = b.size) {region : Region}
    (inside : ∀ p, region.contains p → b.bounds.contains p)
    (shaded : ∀ p, region.contains p → ∃ c, shade p = .ok c) :
    ∃ bytes', (b.image bytes).paint .none shade region = .ok (b.image bytes') ∧
      ∀ p c, region.contains p → shade p = .ok (some c) →
        bytesAt bytes' (b.offset p) = b.format.encode c := by
  obtain ⟨bytes', painted, takes⟩ := paint_walks .none size inside shaded
  refine ⟨bytes', painted, fun p c mem color => ?_⟩
  have met : 0 < region.points.count p := List.count_pos_iff.2 (Region.mem_points.2 mem)
  have ink : shade.ink .none p = [(.none, c)] := by rw [Shade.ink, color]
  rw [takes.pixel p (inside p mem), ink, PixelFormat.inked_replicate _ _ _ met]

end Image

end Compositor
