import HomelabApps.Library.KeyedMap
import HomelabApps.Library.MostFrequent
import HomelabApps.Library.Numerals

namespace HomelabApps.InteractiveMap

open HomelabApps.Library
open HomelabApps.Library.Utf16

structure RGBA where
  r : UInt8
  g : UInt8
  b : UInt8
  a : UInt8
  deriving DecidableEq, Repr

def RGBA.isBlack (pixel : RGBA) : Bool := pixel.r = 0 && pixel.g = 0 && pixel.b = 0

def RGBA.isScaleTop (pixel : RGBA) : Bool := pixel.r = 252 && pixel.g = 252 && pixel.b = 252

def RGBA.max (pixel : RGBA) : Nat := Nat.max (Nat.max pixel.r.toNat pixel.g.toNat) pixel.b.toNat

def RGBA.min (pixel : RGBA) : Nat := Nat.min (Nat.min pixel.r.toNat pixel.g.toNat) pixel.b.toNat

/-- A saturation below `MIN_RAIN_SATURATION`, which is one half. -/
def RGBA.isPale (pixel : RGBA) : Bool := (pixel.max - pixel.min) * 2 < pixel.max

def RGBA.isIgnored (pixel : RGBA) : Bool :=
  pixel.a = 0 || pixel.isBlack || (!pixel.isScaleTop && pixel.isPale)

def COMMA : UInt16 := 0x2C

def RGBA.key (pixel : RGBA) : JsString :=
  numeral pixel.r.toNat ++ COMMA :: (numeral pixel.g.toNat ++ COMMA :: (numeral pixel.b.toNat ++ COMMA ::
    numeral pixel.a.toNat))

structure Entry where
  color : RGBA
  count : Nat

structure Tally where
  counts : KeyedMap JsString Entry
  best : Option JsString

def Tally.empty : Tally where
  counts := []
  best := none

def Tally.add (tally : Tally) (pixel : RGBA) : Tally :=
  if pixel.isIgnored then tally
  else
    let entry := (tally.counts.get pixel.key).getD { color := pixel, count := 0 }
    let entry := { entry with count := entry.count + 1 }
    let counts := tally.counts.set pixel.key entry
    match tally.best.bind counts.get with
    | some best => { counts := counts, best := if entry.count > best.count then some pixel.key else tally.best }
    | none => { counts := counts, best := some pixel.key }

def TRANSPARENT_BLACK : RGBA where
  r := 0
  g := 0
  b := 0
  a := 0

def mostFrequentPrecipitationColor (pixels : List RGBA) : RGBA :=
  let tally := pixels.foldl Tally.add Tally.empty
  match tally.best.bind tally.counts.get with
  | some best => best.color
  | none => TRANSPARENT_BLACK

def sampled (pixels : List RGBA) : List RGBA := pixels.filter (!·.isIgnored)

variable {pixel color : RGBA} {pixels : List RGBA} {tally : Tally}
  {seen : List RGBA}

theorem comma_notMem_numeral (n : Nat) : COMMA ∉ numeral n := by
  intro h
  exact absurd (digit_of_mem_numeral h).1 (by decide)

theorem RGBA.key_injective : Function.Injective RGBA.key := by
  intro p q h
  obtain ⟨hr, h⟩ := append_separator_inj (comma_notMem_numeral _) (comma_notMem_numeral _) h
  obtain ⟨hg, h⟩ := append_separator_inj (comma_notMem_numeral _) (comma_notMem_numeral _) h
  obtain ⟨hb, ha⟩ := append_separator_inj (comma_notMem_numeral _) (comma_notMem_numeral _) h
  have hunit : ∀ u v : UInt8, numeral u.toNat = numeral v.toNat → u = v := fun u v h =>
    UInt8.toNat_inj.mp (numeral_injective h)
  cases p
  cases q
  simp only [RGBA.mk.injEq]
  exact ⟨hunit _ _ hr, hunit _ _ hg, hunit _ _ hb, hunit _ _ ha⟩

structure Tally.Of (tally : Tally) (seen : List RGBA) : Prop where
  counts : ∀ color, tally.counts.get color.key =
    if color ∈ seen then some { color := color, count := seen.count color } else none
  best : (seen = [] ∧ tally.best = none) ∨ ∃ color, FirstDone seen color ∧ tally.best = some color.key

theorem Tally.of_empty : Tally.empty.Of [] where
  counts _ := rfl
  best := .inl ⟨rfl, rfl⟩

theorem Tally.Of.entry (h : tally.Of seen) :
    (tally.counts.get pixel.key).getD { color := pixel, count := 0 } = { color := pixel, count := seen.count pixel } := by
  rw [h.counts]
  split
  · rfl
  · rename_i hnew
    rw [Option.getD_none, List.count_eq_zero_of_not_mem hnew]

theorem Tally.Of.counts_set (h : tally.Of seen) (color : RGBA) :
    (tally.counts.set pixel.key { color := pixel, count := seen.count pixel + 1 }).get color.key =
      if color ∈ seen ++ [pixel] then some { color := color, count := (seen ++ [pixel]).count color } else none := by
  rw [KeyedMap.get_set, count_concat]
  by_cases heq : pixel = color
  · rw [if_pos (congrArg RGBA.key heq), if_pos heq, if_pos (heq ▸ List.mem_append_right _ List.mem_cons_self), heq]
  · have hmem : color ∈ seen ++ [pixel] ↔ color ∈ seen := by
      rw [List.mem_append, List.mem_singleton]
      exact or_iff_left (Ne.symm heq)
    rw [if_neg fun hkey => heq (RGBA.key_injective hkey), if_neg heq, h.counts]
    simp only [hmem, Nat.add_zero]

theorem Tally.Of.add (h : tally.Of seen) (hsampled : pixel.isIgnored = false) :
    (tally.add pixel).Of (seen ++ [pixel]) := by
  rw [Tally.add, hsampled, if_neg Bool.false_ne_true, h.entry]
  cases h.best with
  | inl hnone =>
    obtain ⟨rfl, hbest⟩ := hnone
    rw [hbest]
    refine ⟨h.counts_set, .inr ⟨pixel, firstDone_concat fun color _ => ?_, rfl⟩⟩
    rw [List.count_nil]
    exact Nat.zero_le _
  | inr hsome =>
    obtain ⟨best, hdone, hbest⟩ := hsome
    have hentry := @Tally.Of.counts_set pixel tally seen h best
    rw [if_pos (List.mem_append_left _ hdone.frequent.mem)] at hentry
    rw [hbest]
    simp only [Option.bind_some, hentry]
    refine ⟨h.counts_set, .inr ?_⟩
    by_cases heq : pixel = best
    · rw [count_concat, if_pos heq, if_neg (by rw [heq]; exact Nat.lt_irrefl _)]
      exact ⟨best, heq ▸ firstDone_concat fun color _ => heq ▸ hdone.frequent.count_le color, rfl⟩
    · rw [count_concat, if_neg heq, Nat.add_zero]
      split
      · rename_i hmore
        refine ⟨pixel, firstDone_concat fun color _ => ?_, rfl⟩
        exact Nat.le_trans (hdone.frequent.count_le color) (Nat.le_of_lt_succ hmore)
      · rename_i hless
        exact ⟨best, hdone.concat heq (Nat.le_of_not_lt hless), rfl⟩

theorem Tally.Of.foldl (h : tally.Of seen) : (pixels.foldl Tally.add tally).Of (seen ++ sampled pixels) := by
  induction pixels generalizing tally seen with
  | nil => rwa [sampled, List.filter_nil, List.append_nil]
  | cons pixel pixels ih =>
    rw [List.foldl_cons]
    cases hignored : pixel.isIgnored with
    | true =>
      have hsame : tally.add pixel = tally := by rw [Tally.add, if_pos hignored]
      have hsampled : sampled (pixel :: pixels) = sampled pixels := List.filter_cons_of_neg (by simp [hignored])
      rw [hsame, hsampled]
      exact ih h
    | false =>
      have hsampled : sampled (pixel :: pixels) = pixel :: sampled pixels :=
        List.filter_cons_of_pos (by rw [hignored]; rfl)
      rw [hsampled, List.append_cons]
      exact ih (h.add hignored)

theorem mostFrequentPrecipitationColor_done (hne : sampled pixels ≠ []) :
    FirstDone (sampled pixels) (mostFrequentPrecipitationColor pixels) := by
  have hfold : (pixels.foldl Tally.add Tally.empty).Of (sampled pixels) := Tally.of_empty.foldl
  cases hfold.best with
  | inl hnone => exact absurd hnone.1 hne
  | inr hsome =>
    obtain ⟨best, hdone, hbest⟩ := hsome
    rw [mostFrequentPrecipitationColor, hbest, Option.bind_some, hfold.counts, if_pos hdone.frequent.mem]
    exact hdone

theorem mostFrequentPrecipitationColor_none (h : sampled pixels = []) :
    mostFrequentPrecipitationColor pixels = TRANSPARENT_BLACK := by
  have hfold : (pixels.foldl Tally.add Tally.empty).Of (sampled pixels) := Tally.of_empty.foldl
  rw [h] at hfold
  cases hfold.best with
  | inl hnone => rw [mostFrequentPrecipitationColor, hnone.2, Option.bind_none]
  | inr hsome =>
    obtain ⟨best, hdone, -⟩ := hsome
    exact absurd hdone.frequent.mem List.not_mem_nil

theorem sampled_eq_nil : sampled pixels = [] ↔ ∀ pixel ∈ pixels, pixel.isIgnored = true := by
  rw [sampled, List.filter_eq_nil_iff]
  simp

theorem mostFrequentPrecipitationColor_transparent :
    mostFrequentPrecipitationColor pixels = TRANSPARENT_BLACK ↔ ∀ pixel ∈ pixels, pixel.isIgnored = true := by
  rw [← sampled_eq_nil]
  constructor
  · intro h
    by_contra hne
    have hmem := (mostFrequentPrecipitationColor_done hne).frequent.mem
    rw [h, sampled, List.mem_filter] at hmem
    exact absurd hmem.2 (by decide)
  · exact mostFrequentPrecipitationColor_none

theorem mostFrequentPrecipitationColor_iff (pixels : List RGBA) :
    ((sampled pixels ≠ [] → FirstSeen (sampled pixels) (mostFrequentPrecipitationColor pixels)) ∧
      (mostFrequentPrecipitationColor pixels = TRANSPARENT_BLACK ↔ ∀ pixel ∈ pixels, pixel.isIgnored = true)) ↔
    ∀ color, FirstSeen (sampled pixels) color → FirstDone (sampled pixels) color := by
  constructor
  · intro h color hcolor
    have hne := List.ne_nil_of_mem hcolor.frequent.mem
    exact (mostFrequentPrecipitationColor_done hne).firstSeen_iff.mp (h.1 hne) color hcolor
  · intro h
    refine ⟨fun hne => ?_, mostFrequentPrecipitationColor_transparent⟩
    exact (mostFrequentPrecipitationColor_done hne).firstSeen_iff.mpr h

def blue : RGBA := { r := 0, g := 0, b := 252, a := 255 }

def red : RGBA := { r := 252, g := 0, b := 0, a := 255 }

/-- Red is seen first and as often as blue, which is done before it. -/
theorem mostFrequentPrecipitationColor_late :
    ¬ ∀ pixels, sampled pixels ≠ [] → FirstSeen (sampled pixels) (mostFrequentPrecipitationColor pixels) := by
  intro h
  have hsampled : sampled [red, blue, blue, red] = [red, blue, blue, red] := by decide
  have hblue : mostFrequentPrecipitationColor [red, blue, blue, red] = blue := by decide
  have hseen := h [red, blue, blue, red] (by rw [hsampled]; exact List.cons_ne_nil _ _)
  rw [hsampled, hblue] at hseen
  have hred : MostFrequent [red, blue, blue, red] red := by
    refine ⟨List.mem_cons_self, fun color => ?_⟩
    have hcount : [red, blue, blue, red].count red = [red, blue, blue, red].count blue := by decide
    rw [hcount]
    exact hseen.frequent.count_le color
  exact absurd (hseen.first red hred) (by decide)

end HomelabApps.InteractiveMap
