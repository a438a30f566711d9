import Mathlib.Data.List.Basic
import Mathlib.Tactic.Ring

universe u v

namespace HomelabApps.Library.Raster

variable {α : Type v} {β : Type u}

def index (width channels x y : Nat) : Nat := (y * width + x) * channels

/-- `buffer[i] = values[0]; buffer[i + 1] = values[1]` and so on; what is beyond the buffer is dropped. -/
def put (buffer : List β) (i : Nat) : List β → List β
  | [] => buffer
  | value :: values => put (buffer.set i value) (i + 1) values

def encode (width height : Nat) (picture : Nat → Nat → List β) : List β :=
  (List.range height).flatMap fun y => (List.range width).flatMap fun x => picture x y

def paint (picture : Nat → Nat → β) (x y : Nat) (value : β) : Nat → Nat → β :=
  fun x' y' => if x' = x ∧ y' = y then value else picture x' y'

variable {width height channels : Nat} {picture : Nat → Nat → List β} {buffer values : List β} {i j x y x' y' c : Nat}

theorem put_cons {value : β} : put buffer i (value :: values) = put (buffer.set i value) (i + 1) values := rfl

theorem length_put : (put buffer i values).length = buffer.length := by
  induction values generalizing buffer i with
  | nil => rfl
  | cons value values ih => rw [put_cons, ih, List.length_set]

theorem getElem?_put_of_lt (h : j < i) : (put buffer i values)[j]? = buffer[j]? := by
  induction values generalizing buffer i with
  | nil => rfl
  | cons value values ih =>
    rw [put_cons, ih (Nat.lt_succ_of_lt h)]
    exact List.getElem?_set_ne (Nat.ne_of_gt h)

theorem getElem?_put_of_le (h : i + values.length ≤ j) : (put buffer i values)[j]? = buffer[j]? := by
  induction values generalizing buffer i with
  | nil => rfl
  | cons value values ih =>
    rw [List.length_cons] at h
    rw [put_cons, ih (by omega)]
    exact List.getElem?_set_ne (by omega)

theorem getElem?_put (hc : c < values.length) (hi : i + c < buffer.length) :
    (put buffer i values)[i + c]? = values[c]? := by
  induction values generalizing buffer i c with
  | nil => exact absurd hc (Nat.not_lt_zero c)
  | cons value values ih =>
    rw [put_cons]
    cases c with
    | zero =>
      have hlt : i + 0 < i + 1 := Nat.lt_succ_self i
      rw [getElem?_put_of_lt hlt]
      exact List.getElem?_set_self hi
    | succ c =>
      rw [show i + (c + 1) = i + 1 + c by omega, List.getElem?_cons_succ]
      rw [List.length_cons] at hc
      exact ih (by omega) (by rw [List.length_set]; omega)

theorem length_flatMap {l : List α} {f : α → List β} {n : Nat} (h : ∀ a, (f a).length = n) :
    (l.flatMap f).length = l.length * n := by
  induction l with
  | nil => rw [List.flatMap_nil, List.length_nil, List.length_nil, Nat.zero_mul]
  | cons a l ih => rw [List.flatMap_cons, List.length_append, h, ih, List.length_cons, Nat.succ_mul, Nat.add_comm]

theorem getElem?_flatMap {l : List α} {f : α → List β} {n : Nat} (h : ∀ a, (f a).length = n) (hc : c < n) :
    (l.flatMap f)[i * n + c]? = l[i]?.bind fun a => (f a)[c]? := by
  induction l generalizing i with
  | nil => simp
  | cons a l ih =>
    rw [List.flatMap_cons]
    cases i with
    | zero =>
      rw [Nat.zero_mul, Nat.zero_add, List.getElem?_append_left (by rw [h]; exact hc), List.getElem?_cons_zero,
        Option.bind_some]
    | succ i =>
      have hle : (f a).length ≤ (i + 1) * n + c := by
        rw [h, Nat.succ_mul]
        omega
      have hsub : (i + 1) * n + c - (f a).length = i * n + c := by
        rw [h, Nat.succ_mul]
        omega
      rw [List.getElem?_append_right hle, hsub, ih, List.getElem?_cons_succ]

section

variable (hchannels : ∀ x y, (picture x y).length = channels)

include hchannels

theorem length_encode : (encode width height picture).length = width * height * channels := by
  rw [encode, length_flatMap fun y => length_flatMap fun x => hchannels x y, List.length_range, List.length_range]
  ring

theorem getElem?_encode (hx : x < width) (hy : y < height) (hc : c < channels) :
    (encode width height picture)[index width channels x y + c]? = (picture x y)[c]? := by
  have hrow : ∀ y, ((List.range width).flatMap fun x => picture x y).length = width * channels := fun y => by
    rw [length_flatMap fun x => hchannels x y, List.length_range]
  have hlt : x * channels + c < width * channels := by
    calc x * channels + c
      _ < x * channels + channels := Nat.add_lt_add_left hc _
      _ = (x + 1) * channels := (Nat.succ_mul x channels).symm
      _ ≤ width * channels := Nat.mul_le_mul_right _ hx
  have hindex : index width channels x y + c = y * (width * channels) + (x * channels + c) := by
    rw [index]
    ring
  rw [hindex, encode, getElem?_flatMap hrow hlt, List.getElem?_range hy, Option.bind_some,
    getElem?_flatMap (fun x => hchannels x y) hc, List.getElem?_range hx, Option.bind_some]

end

theorem exists_index (h : j < width * height * channels) :
    ∃ x y c, x < width ∧ y < height ∧ c < channels ∧ j = index width channels x y + c := by
  have hchannels : 0 < channels := Nat.pos_of_ne_zero fun h0 => by simp [h0] at h
  have hwidth : 0 < width := Nat.pos_of_ne_zero fun h0 => by simp [h0] at h
  have hpixel : j / channels < height * width := by
    apply Nat.div_lt_of_lt_mul
    rwa [Nat.mul_comm, Nat.mul_comm height]
  refine ⟨j / channels % width, j / channels / width, j % channels, Nat.mod_lt _ hwidth,
    Nat.div_lt_of_lt_mul (Nat.mul_comm height width ▸ hpixel), Nat.mod_lt _ hchannels, ?_⟩
  rw [index, Nat.div_add_mod', Nat.div_add_mod']

theorem index_disjoint (hx : x < width) (hx' : x' < width) (hne : ¬(x' = x ∧ y' = y)) (hc : c < channels) :
    index width channels x' y' + c < index width channels x y ∨
      index width channels x y + channels ≤ index width channels x' y' + c := by
  have hblock : ∀ {a b : Nat}, a < b → a * channels + c < b * channels := fun {a b} hab =>
    calc a * channels + c
      _ < a * channels + channels := Nat.add_lt_add_left hc _
      _ = (a + 1) * channels := (Nat.succ_mul a channels).symm
      _ ≤ b * channels := Nat.mul_le_mul_right _ hab
  have hrow : ∀ {a b u v : Nat}, a < b → u < width → a * width + u < b * width + v := fun {a b u v} hab hu =>
    calc a * width + u
      _ < a * width + width := Nat.add_lt_add_left hu _
      _ = (a + 1) * width := (Nat.succ_mul a width).symm
      _ ≤ b * width := Nat.mul_le_mul_right _ hab
      _ ≤ b * width + v := Nat.le_add_right _ _
  have hafter : ∀ {a b : Nat}, a < b → a * channels + channels ≤ b * channels + c := fun {a b} hab =>
    calc a * channels + channels
      _ = (a + 1) * channels := (Nat.succ_mul a channels).symm
      _ ≤ b * channels := Nat.mul_le_mul_right _ hab
      _ ≤ b * channels + c := Nat.le_add_right _ _
  obtain hlt | rfl | hgt := Nat.lt_trichotomy y' y
  · exact .inl (hblock (hrow hlt hx'))
  · obtain hlt | rfl | hgt := Nat.lt_trichotomy x' x
    · exact .inl (hblock (Nat.add_lt_add_left hlt _))
    · exact absurd ⟨rfl, rfl⟩ hne
    · exact .inr (hafter (Nat.add_lt_add_left hgt _))
  · exact .inr (hafter (hrow hgt hx))

theorem put_encode (hchannels : ∀ x y, (picture x y).length = channels) (hvalues : values.length = channels)
    (hx : x < width) (hy : y < height) :
    put (encode width height picture) (index width channels x y) values =
      encode width height (paint picture x y values) := by
  have hpainted : ∀ x' y', (paint picture x y values x' y').length = channels := by
    intro x' y'
    rw [paint]
    split_ifs
    · exact hvalues
    · exact hchannels x' y'
  apply List.ext_getElem?
  intro j
  obtain hj | hj := Nat.lt_or_ge j (width * height * channels)
  · obtain ⟨x', y', c, hx', hy', hc, rfl⟩ := exists_index hj
    rw [getElem?_encode hpainted hx' hy' hc, paint]
    split_ifs with hsame
    · obtain ⟨rfl, rfl⟩ := hsame
      exact getElem?_put (hvalues.symm ▸ hc) (by rwa [length_encode hchannels])
    · rw [← getElem?_encode hchannels hx' hy' hc]
      obtain hbefore | hafter := index_disjoint hx hx' hsame hc
      · exact getElem?_put_of_lt hbefore
      · exact getElem?_put_of_le (hvalues.symm ▸ hafter)
  · rw [List.getElem?_eq_none (by rwa [length_put, length_encode hchannels]),
      List.getElem?_eq_none (by rwa [length_encode hpainted])]

end HomelabApps.Library.Raster
