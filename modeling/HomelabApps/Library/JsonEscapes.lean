import HomelabApps.Library.Json

namespace HomelabApps.Library.Json

open HomelabApps.Library.Utf16

def BACKSLASH : UInt16 := 0x5C

def surrogateEscape : JsString → Bool
  | [] => false
  | u :: s =>
    if u = BACKSLASH then
      match s with
      | [] => false
      | v :: t => (v = 0x75 && t.head? = some 0x64) || surrogateEscape t
    else surrogateEscape s

/-- Whatever follows, `s` is read to its end, and `found` says what is found in it. -/
def Scans (s : JsString) (found : Bool) : Prop :=
  ∀ t, surrogateEscape (s ++ t) = (found || surrogateEscape t)

variable {s t : JsString} {a b : Bool} {u : UInt16} {n : Nat}

section

attribute [local simp] surrogateEscape

theorem surrogateEscape_cons (h : u ≠ BACKSLASH) : surrogateEscape (u :: s) = surrogateEscape s := by
  cases s <;> simp [h]

theorem surrogateEscape_backslash : surrogateEscape (BACKSLASH :: u :: t) =
    ((u = 0x75 && t.head? = some 0x64) || surrogateEscape t) := by
  simp

theorem Scans.eq (h : Scans s a) : surrogateEscape s = a := by
  have := h []
  simpa using this

end

theorem Scans.append (hs : Scans s a) (ht : Scans t b) : Scans (s ++ t) (a || b) := by
  intro r
  rw [List.append_assoc, hs, ht, Bool.or_assoc]

theorem scans_plain (h : BACKSLASH ∉ s) : Scans s false := by
  intro t
  induction s with
  | nil => simp
  | cons u s ih =>
    simp only [List.mem_cons, not_or] at h
    rw [List.cons_append, surrogateEscape_cons (Ne.symm h.1)]
    exact ih h.2

theorem hexDigit_ne (h : n < 16) : hexDigit n ≠ BACKSLASH := by
  have hall : ∀ n : Fin 16, hexDigit n ≠ BACKSLASH := by decide
  exact hall ⟨n, h⟩

theorem scans_unicodeEscape : Scans (unicodeEscape u) (hexDigit (u.toNat / 0x1000) = 0x64) := by
  intro t
  have hu := u.toNat_lt
  have hplain : BACKSLASH ∉ [hexDigit (u.toNat / 0x1000), hexDigit (u.toNat / 0x100 % 0x10),
      hexDigit (u.toNat / 0x10 % 0x10), hexDigit (u.toNat % 0x10)] := by
    simp only [List.mem_cons, List.not_mem_nil, or_false, not_or]
    exact ⟨Ne.symm (hexDigit_ne (by omega)), Ne.symm (hexDigit_ne (by omega)),
      Ne.symm (hexDigit_ne (by omega)), Ne.symm (hexDigit_ne (by omega))⟩
  have hdigits := scans_plain hplain t
  rw [unicodeEscape, List.cons_append, List.cons_append]
  refine surrogateEscape_backslash.trans ?_
  rw [hdigits]
  simp

theorem scans_pair (h : u ≠ 0x75) : Scans [BACKSLASH, u] false := by
  intro t
  refine surrogateEscape_backslash.trans ?_
  simp [h]

theorem isSurrogate_eq (h : u.toNat / 0x1000 ≠ 0xD) : isSurrogate u = false := by
  simp only [isSurrogate, Bool.and_eq_false_iff, decide_eq_false_iff_not, UInt16.le_iff_toNat_le,
    UInt16.reduceToNat]
  omega

theorem scans_escapeUnit : Scans (escapeUnit u) (isSurrogate u) := by
  unfold escapeUnit
  split_ifs with h1 h2 h3 h4 h5 h6 h7 h8
  · subst h1
    exact scans_pair (by decide)
  · subst h2
    exact scans_pair (by decide)
  · subst h3
    exact scans_pair (by decide)
  · subst h4
    exact scans_pair (by decide)
  · subst h5
    exact scans_pair (by decide)
  · subst h6
    exact scans_pair (by decide)
  · subst h7
    exact scans_pair (by decide)
  · have hfound : decide (hexDigit (u.toNat / 0x1000) = 0x64) = isSurrogate u := by
      rw [Bool.or_eq_true, decide_eq_true_eq, UInt16.lt_iff_toNat_lt] at h8
      rcases h8 with hlow | hsurrogate
      · have hzero : u.toNat / 0x1000 = 0 := by
          simp only [UInt16.reduceToNat] at hlow
          omega
        rw [isSurrogate_eq (by omega), hzero]
        rfl
      · have hd : u.toNat / 0x1000 = 0xD := by
          by_contra hd
          simp [isSurrogate_eq hd] at hsurrogate
        rw [hsurrogate, hd]
        rfl
    rw [← hfound]
    exact scans_unicodeEscape
  · simp only [Bool.or_eq_true, not_or, Bool.not_eq_true] at h8
    rw [h8.2]
    exact scans_plain (by simpa [BACKSLASH] using Ne.symm h2)

theorem isWellFormed_cons (h : isSurrogate u = false) : isWellFormed (u :: s) = isWellFormed s := by
  simp [isWellFormed, toWellFormed_cons h]

theorem isWellFormed_unpaired (h : isSurrogate u) (hhead : (toWellFormed (u :: s)).head? = some REPLACEMENT) :
    isWellFormed (u :: s) = false := by
  rw [← Bool.not_eq_true, isWellFormed_iff]
  intro heq
  rw [heq, List.head?_cons, Option.some.injEq] at hhead
  rw [hhead] at h
  exact absurd h (by decide)

theorem scans_escape : Scans (escape s) (!isWellFormed s) := by
  induction s using escape.induct with
  | case1 => exact scans_plain (by simp [escape])
  | case2 u =>
    have hfound : (!isWellFormed [u]) = isSurrogate u := by
      cases hu : isSurrogate u with
      | true => rw [isWellFormed_unpaired hu (by simp [toWellFormed, hu]), Bool.not_false]
      | false => simp [isWellFormed, toWellFormed, hu]
    rw [hfound, escape]
    exact scans_escapeUnit
  | case3 u v rest huv ih =>
    have hpair : isWellFormed (u :: v :: rest) = isWellFormed rest := by
      simp [isWellFormed, toWellFormed, huv]
    have hplain : BACKSLASH ∉ [u, v] := by
      rw [Bool.and_eq_true] at huv
      simp only [List.mem_cons, List.not_mem_nil, or_false, not_or]
      constructor
      · rintro rfl
        exact absurd huv.1 (by decide)
      · rintro rfl
        exact absurd huv.2 (by decide)
    rw [hpair, escape, if_pos huv]
    exact (scans_plain hplain).append ih
  | case4 u v rest huv ih =>
    rw [escape, if_neg huv]
    have happend := (scans_escapeUnit (u := u)).append ih
    cases hu : isSurrogate u with
    | true =>
      have hhead : (toWellFormed (u :: v :: rest)).head? = some REPLACEMENT := by
        rw [toWellFormed, if_neg huv, if_pos hu]
        rfl
      rw [hu, Bool.true_or] at happend
      rw [isWellFormed_unpaired hu hhead]
      exact happend
    | false =>
      rw [hu, Bool.false_or] at happend
      rw [isWellFormed_cons hu]
      exact happend

theorem scans_quote : Scans (quote s) (!isWellFormed s) := by
  have h := ((scans_plain (s := [0x22]) (by decide)).append (scans_escape (s := s))).append
    (scans_plain (s := [0x22]) (by decide))
  rwa [Bool.false_or, Bool.or_false] at h

theorem scans_bracketed {before after : JsString} (hs : Scans s a) (hbefore : BACKSLASH ∉ before)
    (hafter : BACKSLASH ∉ after) : Scans (before ++ s ++ after) a := by
  have h := ((scans_plain hbefore).append hs).append (scans_plain hafter)
  rwa [Bool.false_or, Bool.or_false] at h

theorem scans_intercalate_cons {parts : List JsString} (hs : Scans s a)
    (hparts : Scans ([0x2C].intercalate parts) b) (hnil : parts = [] → b = false) :
    Scans ([0x2C].intercalate (s :: parts)) (a || b) := by
  cases parts with
  | nil =>
    rw [hnil rfl, Bool.or_false, List.intercalate_singleton]
    exact hs
  | cons t parts =>
    have h := (hs.append (scans_plain (s := [0x2C]) (by decide))).append hparts
    rw [Bool.or_false] at h
    rwa [List.intercalate_cons_cons]

theorem scans_number (text : NumberText) : Scans (utf16 text.val) false := by
  have hchar : ∀ c ∈ text.val.toList, c.toNat < 0x80 ∧ c.toNat ≠ 0x5C := by
    intro c hc
    have hnumber := List.all_eq_true.mp text.property.2 c hc
    simp only [Char.isDigit, Bool.or_eq_true, Bool.and_eq_true, decide_eq_true_eq] at hnumber
    rcases hnumber with (((hdigit | rfl) | rfl) | rfl) | rfl
    · have h1 : 48 ≤ c.toNat := hdigit.1
      have h2 : c.toNat ≤ 57 := hdigit.2
      omega
    · decide
    · decide
    · decide
    · decide
  refine scans_plain fun hmem => ?_
  obtain ⟨c, hc, heq⟩ := mem_utf16 (fun c hc => (hchar c hc).1) hmem
  exact (hchar c hc).2 heq.symm

mutual

theorem scans_text : (v : Value) → Scans v.text (!v.all isWellFormed)
  | .null => scans_plain (by decide)
  | .bool b => by cases b <;> exact scans_plain (by decide)
  | .number none => scans_plain (by decide)
  | .number (some text) => scans_number text
  | .string s => scans_quote
  | .array items => scans_bracketed (scans_items items) (by decide) (by decide)
  | .object entries => scans_bracketed (scans_entries entries) (by decide) (by decide)
  | .ancestor _ => scans_plain List.not_mem_nil

theorem scans_items : (vs : List Value) →
    Scans ([0x2C].intercalate (textItems vs)) (!allItems isWellFormed vs)
  | [] => scans_plain (by simp [textItems])
  | v :: vs => by
    rw [textItems, allItems, Bool.not_and]
    refine scans_intercalate_cons (scans_text v) (scans_items vs) ?_
    cases vs with
    | nil => simp [allItems]
    | cons => simp [textItems]

theorem scans_entries : (es : List (JsString × Value)) →
    Scans ([0x2C].intercalate (textEntries es)) (!allEntries isWellFormed es)
  | [] => scans_plain (by simp [textEntries])
  | (k, v) :: es => by
    have hentry := (scans_quote (s := k)).append ((scans_plain (s := [0x3A]) (by decide)).append (scans_text v))
    rw [Bool.false_or, ← List.append_assoc] at hentry
    rw [textEntries, allEntries, Bool.not_and, Bool.not_and]
    refine scans_intercalate_cons hentry (scans_entries es) ?_
    cases es with
    | nil => simp [allEntries]
    | cons e => simp [textEntries]

end

theorem all_isWellFormed_of_text {v w : Value} (h : v.text = w.text) :
    v.all isWellFormed = w.all isWellFormed := by
  have hv := (scans_text v).eq
  rw [h, (scans_text w).eq] at hv
  simpa using hv.symm

end HomelabApps.Library.Json
