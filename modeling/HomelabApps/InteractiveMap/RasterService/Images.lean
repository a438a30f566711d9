import HomelabApps.InteractiveMap.RasterService
import HomelabApps.Library.Raster
import Mathlib.Algebra.Order.Group.Abs
import Mathlib.Algebra.Order.Group.Int
import Mathlib.Data.Finset.Prod

namespace HomelabApps.InteractiveMap

open HomelabApps.Library
open HomelabApps.Library.Raster (encode put paint)
open HomelabApps.Library.Utf16

structure Position where
  x : Int
  y : Int

structure Bounds where
  minX : Int
  maxX : Int
  minY : Int
  maxY : Int

def RGBA.channels (pixel : RGBA) : List UInt8 := [pixel.r, pixel.g, pixel.b, pixel.a]

def RED : RGBA where
  r := 255
  g := 0
  b := 0
  a := 255

/-- `for (let i = first; i <= last; i++)`. -/
def upTo (first last : Int) : List Int := (List.range (last - first + 1).toNat).map fun (k : Nat) => first + k

def getCityPixelOffset (dotWidth : Nat) : Nat := if dotWidth % 2 = 0 then dotWidth / 2 else (dotWidth - 1) / 2

def paintPixel (height width : Nat) (buffer : List UInt8) (x y : Int) : List UInt8 :=
  if 0 ≤ x ∧ x < width ∧ 0 ≤ y ∧ y < height then
    put buffer (Raster.index width 4 x.toNat y.toNat) RED.channels
  else buffer

def paintCity (height width offset : Nat) (buffer : List UInt8) (position : Position) : List UInt8 :=
  (upTo (-offset) offset).foldl (fun buffer dx =>
    (upTo (-offset) offset).foldl (fun buffer dy => paintPixel height width buffer (position.x + dx) (position.y + dy))
      buffer) buffer

def createCitiesImage (height width : Nat) (positions : List Position) (dotWidth : Nat) : List UInt8 :=
  positions.foldl (paintCity height width (getCityPixelOffset dotWidth)) (List.replicate (width * height * 4) 0)

def channelAt (data : List UInt8) (i : Int) : Option UInt8 := if 0 ≤ i then data[i.toNat]? else none

def pixelAt (data : List UInt8) (srcIndex : Int) : Option RGBA := do
  return ⟨← channelAt data srcIndex, ← channelAt data (srcIndex + 1), ← channelAt data (srcIndex + 2),
    ← channelAt data (srcIndex + 3)⟩

def getPixelsWithRadius (data : List UInt8) (width height channels : Nat) (position : Position) (radius : Int)
    (bounds : Option Bounds) : Except JsString (List (Option RGBA)) :=
  let startX := max ((bounds.map fun bounds => bounds.minX).getD 0) (position.x - radius)
  let endX := min ((bounds.map fun bounds => bounds.maxX).getD (width - 1)) (position.x + radius)
  let startY := max ((bounds.map fun bounds => bounds.minY).getD 0) (position.y - radius)
  let endY := min ((bounds.map fun bounds => bounds.maxY).getD (height - 1)) (position.y + radius)
  ((upTo startY endY).flatMap fun j => (upTo startX endX).map fun i => (i, j)).mapM fun (i, j) =>
    if channels = 4 then .ok (pixelAt data ((j * width + i) * channels))
    else .error (utf16 "Only 4 channels are supported")

/-- The colour around a position, `topLeft` and `bottomRight` those of the map's panel; `none` when the panel goes
beyond the image and a pixel without channels is counted. -/
def getRGBAOnCoordinates (data : List UInt8) (width height channels : Nat) (position topLeft bottomRight : Position)
    (radius : Int) : Except JsString (Option RGBA) :=
  (getPixelsWithRadius data width height channels position radius
    (some ⟨topLeft.x, bottomRight.x - 1, topLeft.y, bottomRight.y - 1⟩)).map fun pixels =>
      (pixels.mapM id).map mostFrequentPrecipitationColor

def Position.Near (position : Position) (radius : Int) (x y : Int) : Prop :=
  |x - position.x| ≤ radius ∧ |y - position.y| ≤ radius

instance (position : Position) (radius x y : Int) : Decidable (position.Near radius x y) :=
  inferInstanceAs (Decidable (_ ∧ _))

def citiesPicture (positions : List Position) (offset x y : Nat) : RGBA :=
  if positions.any fun position => position.Near offset x y then RED else TRANSPARENT_BLACK

def raw (width height : Nat) (picture : Nat → Nat → RGBA) : List UInt8 :=
  encode width height fun x y => (picture x y).channels

variable {height width offset : Nat} {picture : Nat → Nat → RGBA} {positions : List Position} {position : Position}
  {first last i : Int} {x y : Nat}

theorem mem_upTo : i ∈ upTo first last ↔ first ≤ i ∧ i ≤ last := by
  rw [upTo, List.mem_map]
  constructor
  · rintro ⟨k, hk, rfl⟩
    rw [List.mem_range] at hk
    omega
  · rintro ⟨hfirst, hlast⟩
    refine ⟨(i - first).toNat, ?_, ?_⟩
    · rw [List.mem_range]
      omega
    · omega

theorem nodup_upTo : (upTo first last).Nodup := by
  apply List.nodup_range.map
  intro k k' h
  dsimp only at h
  omega

theorem length_channels (picture : Nat → Nat → RGBA) (x y : Nat) : (picture x y).channels.length = 4 := rfl

theorem raw_blank : raw width height (fun _ _ => TRANSPARENT_BLACK) = List.replicate (width * height * 4) 0 := by
  apply List.eq_replicate_iff.mpr
  refine ⟨Raster.length_encode (length_channels _), fun b hb => ?_⟩
  obtain ⟨y, -, hb⟩ := List.mem_flatMap.mp hb
  obtain ⟨x, -, hb⟩ := List.mem_flatMap.mp hb
  simpa [RGBA.channels, TRANSPARENT_BLACK] using hb

def dotted (dots : Int → Int → Bool) (x y : Nat) : RGBA := if dots x y then RED else TRANSPARENT_BLACK

theorem raw_congr {picture' : Nat → Nat → RGBA} (h : ∀ x < width, ∀ y < height, picture x y = picture' x y) :
    raw width height picture = raw width height picture' := by
  rw [raw, raw, encode, encode]
  apply List.flatMap_congr
  intro y hy
  apply List.flatMap_congr
  intro x hx
  rw [h x (List.mem_range.mp hx) y (List.mem_range.mp hy)]

theorem paintPixel_raw (dots : Int → Int → Bool) (x y : Int) :
    paintPixel height width (raw width height (dotted dots)) x y =
      raw width height (dotted fun a b => dots a b || (a = x && b = y)) := by
  rw [paintPixel]
  split_ifs with hinside
  · obtain ⟨hx, hxw, hy, hyh⟩ := hinside
    rw [raw, Raster.put_encode (length_channels _) rfl (by omega) (by omega), raw]
    congr 1
    funext a b
    rw [paint, dotted, dotted]
    by_cases hsame : a = x.toNat ∧ b = y.toNat
    · have hpoint : (a : Int) = x ∧ (b : Int) = y := by omega
      rw [if_pos hsame, if_pos (by simp [hpoint])]
    · have hpoint : ¬((a : Int) = x ∧ (b : Int) = y) := by omega
      simp [hsame, hpoint]
  · apply raw_congr
    intro a ha b hb
    have hpoint : ¬((a : Int) = x ∧ (b : Int) = y) := by omega
    simp [dotted, hpoint]

theorem paintAll_raw (points : List (Int × Int)) (dots : Int → Int → Bool) :
    points.foldl (fun buffer point => paintPixel height width buffer point.1 point.2)
      (raw width height (dotted dots)) = raw width height (dotted fun a b => dots a b || (a, b) ∈ points) := by
  induction points generalizing dots with
  | nil => simp
  | cons point points ih =>
    rw [List.foldl_cons, paintPixel_raw, ih]
    congr 2
    funext a b
    simp [Prod.ext_iff, Bool.or_assoc]

def dot (offset : Nat) (position : Position) : List (Int × Int) :=
  (upTo (-offset) offset).flatMap fun dx => (upTo (-offset) offset).map fun dy => (position.x + dx, position.y + dy)

theorem mem_dot {a b : Int} : (a, b) ∈ dot offset position ↔ position.Near offset a b := by
  simp only [dot, List.mem_flatMap, List.mem_map, mem_upTo, Prod.mk.injEq, Position.Near, abs_le]
  constructor
  · rintro ⟨dx, hdx, dy, hdy, rfl, rfl⟩
    omega
  · intro h
    exact ⟨a - position.x, by omega, b - position.y, by omega, by omega, by omega⟩

theorem paintCity_eq (buffer : List UInt8) : paintCity height width offset buffer position =
    (dot offset position).foldl (fun buffer point => paintPixel height width buffer point.1 point.2) buffer := by
  rw [paintCity, dot, List.foldl_flatMap]
  simp only [List.foldl_map]

theorem createCitiesImage_eq (height width : Nat) (positions : List Position) (dotWidth : Nat) :
    createCitiesImage height width positions dotWidth =
      raw width height (citiesPicture positions (getCityPixelOffset dotWidth)) := by
  have hpoints : ∀ buffer, positions.foldl (paintCity height width (getCityPixelOffset dotWidth)) buffer =
      (positions.flatMap (dot (getCityPixelOffset dotWidth))).foldl
        (fun buffer point => paintPixel height width buffer point.1 point.2) buffer := by
    intro buffer
    rw [List.foldl_flatMap]
    simp only [← paintCity_eq]
  have hblank : (fun _ _ => TRANSPARENT_BLACK) = dotted fun _ _ => false := rfl
  rw [createCitiesImage, hpoints, ← raw_blank, hblank, paintAll_raw]
  congr 1
  funext x y
  rw [dotted, citiesPicture]
  simp only [Bool.false_or, List.mem_flatMap, mem_dot, decide_eq_true_eq, List.any_eq_true]

def window (position topLeft bottomRight : Position) (radius : Int) : List (Int × Int) :=
  (upTo (max topLeft.y (position.y - radius)) (min (bottomRight.y - 1) (position.y + radius))).flatMap fun j =>
    (upTo (max topLeft.x (position.x - radius)) (min (bottomRight.x - 1) (position.x + radius))).map fun i => (i, j)

structure Panel (width height : Nat) (topLeft bottomRight : Position) : Prop where
  left : 0 ≤ topLeft.x
  top : 0 ≤ topLeft.y
  right : bottomRight.x ≤ width
  bottom : bottomRight.y ≤ height

def counted (width height : Nat) (picture : Nat → Nat → RGBA) (position topLeft bottomRight : Position) (radius : Int) :
    Finset (Nat × Nat) :=
  (Finset.range width ×ˢ Finset.range height).filter fun p =>
    position.Near radius p.1 p.2 ∧ topLeft.x ≤ p.1 ∧ p.1 < bottomRight.x ∧ topLeft.y ≤ p.2 ∧ p.2 < bottomRight.y ∧
      (picture p.1 p.2).isIgnored = false

variable {topLeft bottomRight : Position} {radius : Int} {point : Int × Int}

theorem mem_window : point ∈ window position topLeft bottomRight radius ↔
    position.Near radius point.1 point.2 ∧ topLeft.x ≤ point.1 ∧ point.1 < bottomRight.x ∧ topLeft.y ≤ point.2 ∧
      point.2 < bottomRight.y := by
  obtain ⟨a, b⟩ := point
  simp only [window, List.mem_flatMap, List.mem_map, mem_upTo, Prod.mk.injEq, Position.Near, abs_le]
  constructor
  · rintro ⟨j, hj, i, hi, rfl, rfl⟩
    omega
  · intro h
    exact ⟨b, by omega, a, by omega, rfl, rfl⟩

theorem nodup_window : (window position topLeft bottomRight radius).Nodup := by
  apply List.nodup_flatMap.mpr
  constructor
  · intro j _
    apply nodup_upTo.map
    intro i i' h
    exact (Prod.mk.inj h).1
  · apply nodup_upTo.imp
    intro j j' hne point hj hj'
    obtain ⟨i, -, rfl⟩ := List.mem_map.mp hj
    obtain ⟨i', -, heq⟩ := List.mem_map.mp hj'
    exact hne (Prod.mk.inj heq).2.symm

theorem Panel.inside (h : Panel width height topLeft bottomRight)
    (hpoint : point ∈ window position topLeft bottomRight radius) :
    point.1.toNat < width ∧ point.2.toNat < height ∧ (point.1.toNat : Int) = point.1 ∧
      (point.2.toNat : Int) = point.2 := by
  obtain ⟨-, hleft, hright, htop, hbottom⟩ := mem_window.mp hpoint
  have := h.left
  have := h.right
  have := h.top
  have := h.bottom
  omega

theorem channelAt_raw {c : Nat} (hx : x < width) (hy : y < height) (hc : c < 4) :
    channelAt (raw width height picture) ((y * width + x : Nat) * 4 + c) = (picture x y).channels[c]? := by
  have hindex : ((y * width + x : Nat) * 4 + c : Int) = ((Raster.index width 4 x y + c : Nat) : Int) := by
    rw [Raster.index]
    omega
  rw [hindex, channelAt, if_pos (by omega), Int.toNat_natCast]
  exact Raster.getElem?_encode (length_channels _) hx hy hc

theorem pixelAt_raw (hx : x < width) (hy : y < height) :
    pixelAt (raw width height picture) ((y * width + x : Nat) * 4) = some (picture x y) := by
  have hat := fun c (hc : c < 4) => @channelAt_raw height width picture x y c hx hy hc
  have hr : channelAt (raw width height picture) ((y * width + x : Nat) * 4) = some (picture x y).r := by
    simpa [RGBA.channels] using hat 0 (by decide)
  have hg : channelAt (raw width height picture) ((y * width + x : Nat) * 4 + 1) = some (picture x y).g := by
    simpa [RGBA.channels] using hat 1 (by decide)
  have hb : channelAt (raw width height picture) ((y * width + x : Nat) * 4 + 2) = some (picture x y).b := by
    simpa [RGBA.channels] using hat 2 (by decide)
  have ha : channelAt (raw width height picture) ((y * width + x : Nat) * 4 + 3) = some (picture x y).a := by
    simpa [RGBA.channels] using hat 3 (by decide)
  rw [pixelAt, hr, hg, hb, ha]
  rfl

theorem mapM_ok {α β ε : Type} {l : List α} {f : α → Except ε β} {g : α → β} (h : ∀ a ∈ l, f a = .ok (g a)) :
    l.mapM f = .ok (l.map g) := by
  induction l with
  | nil => rfl
  | cons a l ih =>
    rw [List.mapM_cons, h a List.mem_cons_self, ih fun b hb => h b (List.mem_cons_of_mem a hb)]
    rfl

theorem mapM_some {α β : Type} (l : List α) (g : α → β) : (l.map fun a => some (g a)).mapM id = some (l.map g) := by
  induction l with
  | nil => rfl
  | cons a l ih =>
    rw [List.map_cons, List.mapM_cons, ih]
    rfl

theorem getPixelsWithRadius_raw (h : Panel width height topLeft bottomRight) :
    getPixelsWithRadius (raw width height picture) width height 4 position radius
        (some ⟨topLeft.x, bottomRight.x - 1, topLeft.y, bottomRight.y - 1⟩) =
      .ok ((window position topLeft bottomRight radius).map fun point =>
        some (picture point.1.toNat point.2.toNat)) := by
  apply mapM_ok
  rintro ⟨i, j⟩ hpoint
  obtain ⟨hx, hy, hi, hj⟩ := h.inside hpoint
  have hindex : (j * width + i) * ((4 : Nat) : Int) = ((j.toNat * width + i.toNat : Nat) : Int) * 4 := by
    rw [Nat.cast_add, Nat.cast_mul, hi, hj]
    rfl
  dsimp only
  rw [if_pos rfl, hindex, pixelAt_raw hx hy]

theorem count_window (picture : Nat → Nat → RGBA) (position : Position) (radius : Int)
    (h : Panel width height topLeft bottomRight) (color : RGBA) :
    (sampled ((window position topLeft bottomRight radius).map fun point =>
      picture point.1.toNat point.2.toNat)).count color =
    ((counted width height picture position topLeft bottomRight radius).filter fun p =>
      picture p.1 p.2 = color).card := by
  let places := (window position topLeft bottomRight radius).filter fun point =>
    picture point.1.toNat point.2.toNat == color && !(picture point.1.toNat point.2.toNat).isIgnored
  have hcount : (sampled ((window position topLeft bottomRight radius).map fun point =>
      picture point.1.toNat point.2.toNat)).count color = places.length := by
    rw [sampled, List.count_eq_countP, List.countP_filter, List.countP_map, List.countP_eq_length_filter]
    rfl
  have hinside : ∀ point ∈ places, point.1.toNat < width ∧ point.2.toNat < height ∧
      (point.1.toNat : Int) = point.1 ∧ (point.2.toNat : Int) = point.2 :=
    fun point hpoint => h.inside (List.mem_of_mem_filter hpoint)
  have hnodup : (places.map fun point => (point.1.toNat, point.2.toNat)).Nodup := by
    apply List.Nodup.map_on
    · intro point hpoint point' hpoint' heq
      obtain ⟨-, -, hi, hj⟩ := hinside point hpoint
      obtain ⟨-, -, hi', hj'⟩ := hinside point' hpoint'
      rw [Prod.mk.injEq] at heq
      exact Prod.ext (by omega) (by omega)
    · exact nodup_window.filter _
  rw [hcount, ← List.length_map fun point : Int × Int => (point.1.toNat, point.2.toNat),
    ← List.toFinset_card_of_nodup hnodup]
  congr 1
  ext ⟨x, y⟩
  rw [List.mem_toFinset, List.mem_map, counted, Finset.mem_filter, Finset.mem_filter, Finset.mem_product,
    Finset.mem_range, Finset.mem_range]
  constructor
  · rintro ⟨point, hpoint, heq⟩
    obtain ⟨hx, hy, hi, hj⟩ := hinside point hpoint
    obtain ⟨hwindow, hcolor⟩ := List.mem_filter.mp hpoint
    rw [Bool.and_eq_true, beq_iff_eq, Bool.not_eq_true'] at hcolor
    obtain ⟨rfl, rfl⟩ := Prod.mk.inj heq
    dsimp only
    rw [hi, hj]
    obtain ⟨hnear, hpanel⟩ := mem_window.mp hwindow
    exact ⟨⟨⟨hx, hy⟩, hnear, hpanel.1, hpanel.2.1, hpanel.2.2.1, hpanel.2.2.2, hcolor.2⟩, hcolor.1⟩
  · rintro ⟨⟨⟨hx, hy⟩, hnear, hleft, hright, htop, hbottom, hsampled⟩, hcolor⟩
    refine ⟨((x : Int), (y : Int)), List.mem_filter.mpr ⟨mem_window.mpr ⟨hnear, hleft, hright, htop, hbottom⟩, ?_⟩, rfl⟩
    rw [Bool.and_eq_true, beq_iff_eq, Bool.not_eq_true']
    exact ⟨hcolor, hsampled⟩

theorem sampled_window (h : Panel width height topLeft bottomRight) :
    sampled ((window position topLeft bottomRight radius).map fun point => picture point.1.toNat point.2.toNat) = [] ↔
      counted width height picture position topLeft bottomRight radius = ∅ := by
  constructor
  · intro hnone
    apply Finset.eq_empty_of_forall_notMem
    intro p hp
    have hcount := count_window picture position radius h (picture p.1 p.2)
    rw [hnone, List.count_nil] at hcount
    exact Finset.notMem_empty p (Finset.card_eq_zero.mp hcount.symm ▸ Finset.mem_filter.mpr ⟨hp, rfl⟩)
  · intro hnone
    apply List.eq_nil_iff_forall_not_mem.mpr
    intro color hcolor
    have hcount := count_window picture position radius h color
    rw [hnone, Finset.filter_empty, Finset.card_empty] at hcount
    exact absurd hcolor (List.count_eq_zero.mp hcount)

theorem getRGBAOnCoordinates_frequent (picture : Nat → Nat → RGBA) (position : Position) (radius : Int)
    (h : Panel width height topLeft bottomRight) :
    ∃ color, getRGBAOnCoordinates (raw width height picture) width height 4 position topLeft bottomRight radius =
        .ok (some color) ∧
      (color = TRANSPARENT_BLACK ↔ counted width height picture position topLeft bottomRight radius = ∅) ∧
      ∀ other, ((counted width height picture position topLeft bottomRight radius).filter fun p =>
          picture p.1 p.2 = other).card ≤
        ((counted width height picture position topLeft bottomRight radius).filter fun p =>
          picture p.1 p.2 = color).card := by
  let pixels := (window position topLeft bottomRight radius).map fun point => picture point.1.toNat point.2.toNat
  refine ⟨mostFrequentPrecipitationColor pixels, ?_, ?_, ?_⟩
  · rw [getRGBAOnCoordinates, getPixelsWithRadius_raw h, Except.map, mapM_some]
    rfl
  · rw [mostFrequentPrecipitationColor_transparent, ← sampled_eq_nil]
    exact sampled_window h
  · intro other
    rw [← count_window picture position radius h, ← count_window picture position radius h]
    by_cases hnone : sampled pixels = []
    · rw [hnone, List.count_nil]
      exact Nat.zero_le _
    · exact (mostFrequentPrecipitationColor_done hnone).frequent.count_le other

def redCorner (x y : Nat) : RGBA := if x < 2 ∧ y < 2 then red else blue

theorem getRGBAOnCoordinates_frequent_corner :
    ∃ color, getRGBAOnCoordinates (raw 3 3 redCorner) 3 3 4 ⟨1, 1⟩ ⟨0, 0⟩ ⟨2, 3⟩ 1 = .ok (some color) ∧
      (color = TRANSPARENT_BLACK ↔ counted 3 3 redCorner ⟨1, 1⟩ ⟨0, 0⟩ ⟨2, 3⟩ 1 = ∅) ∧ color = red := by
  have hpanel : Panel 3 3 ⟨0, 0⟩ ⟨2, 3⟩ := ⟨by decide, by decide, by decide, by decide⟩
  obtain ⟨color, hread, hnone, -⟩ := getRGBAOnCoordinates_frequent redCorner ⟨1, 1⟩ 1 hpanel
  refine ⟨color, hread, hnone, ?_⟩
  have hred : getRGBAOnCoordinates (raw 3 3 redCorner) 3 3 4 ⟨1, 1⟩ ⟨0, 0⟩ ⟨2, 3⟩ 1 = .ok (some red) := by
    decide +kernel
  exact Option.some.inj (Except.ok.inj (hread.symm.trans hred))

end HomelabApps.InteractiveMap
