import Mathlib.Data.List.DropRight
import Mathlib.Data.List.Lex
import Mathlib.Data.UInt

/-! Strings as sequences of UTF-16 code units: surrogates, what an encoder makes of unpaired
ones, white space and trimming. -/

namespace HomelabApps.Library.Utf16

abbrev JsString := List UInt16

def NUL : UInt16 := 0

def REPLACEMENT : UInt16 := 0xFFFD

def utf16 (s : String) : JsString :=
  s.toList.flatMap fun c =>
    let v := c.toNat
    if v < 0x10000 then [v.toUInt16]
    else [(0xD800 + (v - 0x10000) / 0x400).toUInt16, (0xDC00 + (v - 0x10000) % 0x400).toUInt16]

def isHigh (u : UInt16) : Bool := 0xD800 ≤ u && u ≤ 0xDBFF

def isLow (u : UInt16) : Bool := 0xDC00 ≤ u && u ≤ 0xDFFF

def isSurrogate (u : UInt16) : Bool := 0xD800 ≤ u && u ≤ 0xDFFF

/-- Unpaired surrogates replaced, as every UTF-8 encoder of the runtime does. -/
def toWellFormed : JsString → JsString
  | [] => []
  | [u] => if isSurrogate u then [REPLACEMENT] else [u]
  | u :: v :: rest =>
    if isHigh u && isLow v then u :: v :: toWellFormed rest
    else if isSurrogate u then REPLACEMENT :: toWellFormed (v :: rest)
    else u :: toWellFormed (v :: rest)

def isWellFormed (s : JsString) : Bool := toWellFormed s = s

def isWhitespace (u : UInt16) : Bool :=
  (0x9 ≤ u && u ≤ 0xD) || u = 0x20 || u = 0xA0 || u = 0x1680 || (0x2000 ≤ u && u ≤ 0x200A) ||
    u = 0x2028 || u = 0x2029 || u = 0x202F || u = 0x205F || u = 0x3000 || u = 0xFEFF

def trimStart (s : JsString) : JsString := s.dropWhile isWhitespace

def trimEnd (s : JsString) : JsString := s.rdropWhile isWhitespace

def trim (s : JsString) : JsString := trimEnd (trimStart s)

def isNotEmpty (s : JsString) : Bool := trim s ≠ []

variable {u v : UInt16} {s t : JsString}

theorem mem_utf16 {text : String} (hascii : ∀ c ∈ text.toList, c.toNat < 0x80) (h : u ∈ utf16 text) :
    ∃ c ∈ text.toList, u.toNat = c.toNat := by
  obtain ⟨c, hc, hu⟩ := List.mem_flatMap.mp h
  have hlt := hascii c hc
  rw [if_pos (by omega), List.mem_singleton] at hu
  refine ⟨c, hc, ?_⟩
  rw [hu, Nat.toUInt16_eq, UInt16.toNat_ofNat']
  omega

theorem isSurrogate_of_isHigh (h : isHigh u) : isSurrogate u := by
  simp only [isHigh, isSurrogate, Bool.and_eq_true, decide_eq_true_eq] at h ⊢
  exact ⟨h.1, UInt16.le_trans h.2 (by decide)⟩

theorem isSurrogate_of_isLow (h : isLow u) : isSurrogate u := by
  simp only [isLow, isSurrogate, Bool.and_eq_true, decide_eq_true_eq] at h ⊢
  exact ⟨UInt16.le_trans (by decide) h.1, h.2⟩

theorem isHigh_eq_false (h : isSurrogate u = false) : isHigh u = false := by
  cases hu : isHigh u with
  | false => rfl
  | true => exact absurd (isSurrogate_of_isHigh hu) (by simp [h])

theorem isLow_eq_false (h : isSurrogate u = false) : isLow u = false := by
  cases hu : isLow u with
  | false => rfl
  | true => exact absurd (isSurrogate_of_isLow hu) (by simp [h])

section

attribute [local simp] toWellFormed

theorem toWellFormed_cons (h : isSurrogate u = false) :
    toWellFormed (u :: s) = u :: toWellFormed s := by
  cases s with
  | nil => simp [h]
  | cons v rest => simp [h, isHigh_eq_false h]

theorem toWellFormed_append_cons (h : isSurrogate u = false) :
    toWellFormed (s ++ u :: t) = toWellFormed s ++ u :: toWellFormed t := by
  induction s using toWellFormed.induct with
  | case1 => exact toWellFormed_cons h
  | case2 v hv => simp [isLow_eq_false h, hv, toWellFormed_cons h]
  | case3 v hv => simp [isLow_eq_false h, hv, toWellFormed_cons h]
  | case4 v w rest hvw ih => simp [hvw, ih]
  | case5 v w rest hvw hv ih =>
    simp only [List.cons_append, toWellFormed, hvw, hv, if_true, Bool.false_eq_true, if_false]
    simpa using ih
  | case6 v w rest hvw hv ih =>
    simp only [List.cons_append, toWellFormed, hvw, hv, Bool.false_eq_true, if_false]
    simpa using ih

end

theorem toWellFormed_append (h : ∀ u ∈ t, isSurrogate u = false) :
    toWellFormed (s ++ t) = toWellFormed s ++ t := by
  induction t generalizing s with
  | nil => simp
  | cons u t ih =>
    have ht := ih (s := []) fun v hv => h v (List.mem_cons_of_mem _ hv)
    rw [toWellFormed_append_cons (h u List.mem_cons_self)]
    simpa [toWellFormed] using ht

theorem toWellFormed_intercalate (h : isSurrogate u = false) (parts : List JsString) :
    toWellFormed ([u].intercalate parts) = [u].intercalate (parts.map toWellFormed) := by
  induction parts with
  | nil => rfl
  | cons s parts ih =>
    cases parts with
    | nil => simp
    | cons t parts =>
      rw [List.intercalate_cons_cons, List.append_assoc, List.singleton_append, toWellFormed_append_cons h,
        ih]
      simp

theorem notMem_intercalate {parts : List JsString} (hsep : u ∉ s) (h : ∀ t ∈ parts, u ∉ t) :
    u ∉ s.intercalate parts := by
  induction parts with
  | nil => simp
  | cons r parts ih =>
    cases parts with
    | nil => simpa using h
    | cons t parts =>
      rw [List.intercalate_cons_cons]
      simp only [List.mem_append, not_or]
      exact ⟨⟨h r List.mem_cons_self, hsep⟩, ih fun t ht => h t (List.mem_cons_of_mem _ ht)⟩

theorem mem_toWellFormed (h : u ∈ toWellFormed s) :
    u ∈ s ∨ u = REPLACEMENT ∧ ∃ v ∈ s, isSurrogate v := by
  induction s using toWellFormed.induct with
  | case1 => simp [toWellFormed] at h
  | case2 v hv => simp_all [toWellFormed]
  | case3 v hv => simp_all [toWellFormed]
  | case4 v w rest hvw ih =>
    rw [toWellFormed, if_pos hvw, List.mem_cons, List.mem_cons] at h
    rcases h with h | h | h
    · simp [h]
    · simp [h]
    · exact (ih h).imp (by simp +contextual) fun ⟨hr, x, hx, hs⟩ => ⟨hr, x, by simp [hx], hs⟩
  | case5 v w rest hvw hv ih =>
    rw [toWellFormed, if_neg hvw, if_pos hv, List.mem_cons] at h
    rcases h with h | h
    · exact .inr ⟨h, v, List.mem_cons_self, hv⟩
    · exact (ih h).imp (List.mem_cons_of_mem _) fun ⟨hr, x, hx, hs⟩ => ⟨hr, x, List.mem_cons_of_mem _ hx, hs⟩
  | case6 v w rest hvw hv ih =>
    rw [toWellFormed, if_neg hvw, if_neg hv, List.mem_cons] at h
    rcases h with h | h
    · simp [h]
    · exact (ih h).imp (List.mem_cons_of_mem _) fun ⟨hr, x, hx, hs⟩ => ⟨hr, x, List.mem_cons_of_mem _ hx, hs⟩

theorem mem_toWellFormed_of_mem (h : u ∈ s) :
    u ∈ toWellFormed s ∨ isSurrogate u ∧ REPLACEMENT ∈ toWellFormed s := by
  induction s using toWellFormed.induct with
  | case1 => simp at h
  | case2 v hv => simp_all [toWellFormed]
  | case3 v hv => simp_all [toWellFormed]
  | case4 v w rest hvw ih =>
    rw [toWellFormed, if_pos hvw]
    rcases List.mem_cons.mp h with h | h
    · simp [h]
    · rcases List.mem_cons.mp h with h | h
      · simp [h]
      · exact (ih h).imp (by simp +contextual) fun ⟨hs, hr⟩ => ⟨hs, by simp [hr]⟩
  | case5 v w rest hvw hv ih =>
    rw [toWellFormed, if_neg hvw, if_pos hv]
    rcases List.mem_cons.mp h with h | h
    · exact .inr ⟨h ▸ hv, List.mem_cons_self⟩
    · exact (ih h).imp (List.mem_cons_of_mem _) fun ⟨hs, hr⟩ => ⟨hs, List.mem_cons_of_mem _ hr⟩
  | case6 v w rest hvw hv ih =>
    rw [toWellFormed, if_neg hvw, if_neg hv]
    rcases List.mem_cons.mp h with h | h
    · simp [h]
    · exact (ih h).imp (List.mem_cons_of_mem _) fun ⟨hs, hr⟩ => ⟨hs, List.mem_cons_of_mem _ hr⟩

theorem nul_mem_toWellFormed : NUL ∈ toWellFormed s ↔ NUL ∈ s := by
  constructor
  · intro h
    exact (mem_toWellFormed h).resolve_right fun h => absurd h.1 (by decide)
  · intro h
    exact (mem_toWellFormed_of_mem h).resolve_right fun h => absurd h.1 (by decide)

theorem toWellFormed_idem : toWellFormed (toWellFormed s) = toWellFormed s := by
  induction s using toWellFormed.induct with
  | case1 => rfl
  | case2 v hv => simp [toWellFormed, hv, show isSurrogate REPLACEMENT = false by decide]
  | case3 v hv => simp [toWellFormed, hv]
  | case4 v w rest hvw ih => rw [toWellFormed, if_pos hvw, toWellFormed, if_pos hvw, ih]
  | case5 v w rest hvw hv ih =>
    rw [toWellFormed, if_neg hvw, if_pos hv, toWellFormed_cons (by decide), ih]
  | case6 v w rest hvw hv ih =>
    rw [toWellFormed, if_neg hvw, if_neg hv, toWellFormed_cons (by simpa using hv), ih]

theorem isWellFormed_iff : isWellFormed s ↔ toWellFormed s = s := by simp [isWellFormed]

theorem notMem_of_mem_splitOn (h : t ∈ s.splitOn u) : u ∉ t := by
  induction s generalizing t with
  | nil =>
    rw [List.splitOn_nil, List.mem_singleton] at h
    simp [h]
  | cons v s ih =>
    rw [List.splitOn_cons_eq_if_modifyHead] at h
    split at h
    · rcases List.mem_cons.mp h with rfl | h
      · simp
      · exact ih h
    · rename_i hv
      cases hs : s.splitOn u with
      | nil => simp [hs] at h
      | cons r rs =>
        rw [hs, List.modifyHead_cons] at h
        rcases List.mem_cons.mp h with rfl | h
        · have hr := ih (t := r) (by simp [hs])
          simp only [beq_iff_eq] at hv
          simp [hr, Ne.symm hv]
        · exact ih (by simp [hs, h])

theorem mem_of_mem_splitOn (h : t ∈ s.splitOn u) (hv : v ∈ t) : v ∈ s := by
  have hmem : ∀ parts : List JsString, t ∈ parts → v ∈ [u].intercalate parts := by
    intro parts ht
    induction parts with
    | nil => cases ht
    | cons r parts ih =>
      cases parts with
      | nil => simpa [List.mem_singleton.mp ht] using hv
      | cons r' parts =>
        rw [List.intercalate_cons_cons, List.mem_append]
        rcases List.mem_cons.mp ht with rfl | ht
        · exact .inl (List.mem_append_left _ hv)
        · exact .inr (ih ht)
  rw [← @List.intercalate_splitOn _ s _ _ u]
  exact hmem _ h

theorem toWellFormed_splitOn (h : isSurrogate u = false) (hne : u ≠ REPLACEMENT) :
    toWellFormed s = s ↔ ∀ t ∈ s.splitOn u, toWellFormed t = t := by
  have hjoin := toWellFormed_intercalate h (s.splitOn u)
  rw [List.intercalate_splitOn] at hjoin
  constructor
  · intro hs
    have hparts : ∀ t ∈ (s.splitOn u).map toWellFormed, u ∉ t := by
      intro t ht hu
      obtain ⟨r, hr, rfl⟩ := List.mem_map.mp ht
      exact notMem_of_mem_splitOn hr ((mem_toWellFormed hu).resolve_right fun h => hne h.1)
    have hsplit := List.splitOn_intercalate u hparts (by simp [List.splitOn_ne_nil])
    rw [← hjoin, hs] at hsplit
    exact fun t ht => List.map_inj_left.mp (hsplit.symm.trans (List.map_id _).symm) t ht
  · intro hparts
    rw [hjoin, List.map_congr_left hparts, List.map_id', List.intercalate_splitOn]

theorem isSurrogate_of_isWhitespace (h : isWhitespace u) : isSurrogate u = false := by
  simp only [isWhitespace, Bool.or_eq_true, Bool.and_eq_true, decide_eq_true_eq,
    UInt16.le_iff_toNat_le, ← UInt16.toNat_inj, UInt16.reduceToNat] at h
  simp only [isSurrogate, Bool.and_eq_false_iff, decide_eq_false_iff_not, UInt16.le_iff_toNat_le,
    UInt16.reduceToNat]
  omega

theorem mem_of_mem_trim (h : u ∈ trim s) : u ∈ s :=
  (List.dropWhile_suffix _).subset ((List.rdropWhile_prefix isWhitespace _).subset h)

theorem trim_eq_nil : trim s = [] ↔ ∀ u ∈ s, isWhitespace u := by
  rw [trim, trimEnd, List.rdropWhile_eq_nil_iff, trimStart]
  constructor
  · intro h u hu
    rw [← List.takeWhile_append_dropWhile (p := isWhitespace) (l := s), List.mem_append] at hu
    exact hu.elim (fun hu => List.mem_takeWhile_imp hu) (h u)
  · intro h u hu
    exact h u (List.dropWhile_subset _ hu)

theorem isNotEmpty_iff : isNotEmpty s ↔ ∃ u ∈ s, isWhitespace u = false := by
  simp [isNotEmpty, trim_eq_nil]

theorem mem_dropWhile (hu : u ∈ s) (h : isWhitespace u = false) : u ∈ s.dropWhile isWhitespace := by
  rw [← List.takeWhile_append_dropWhile (p := isWhitespace) (l := s), List.mem_append] at hu
  refine hu.resolve_left fun hu => ?_
  rw [List.mem_takeWhile_imp hu] at h
  cases h

theorem isNotEmpty_trim : isNotEmpty (trim s) = isNotEmpty s := by
  rw [Bool.eq_iff_iff, isNotEmpty_iff, isNotEmpty_iff]
  constructor
  · rintro ⟨u, hu, h⟩
    exact ⟨u, mem_of_mem_trim hu, h⟩
  · rintro ⟨u, hu, h⟩
    exact ⟨u, List.mem_reverse.mpr (mem_dropWhile (List.mem_reverse.mpr (mem_dropWhile hu h)) h), h⟩

theorem isNotEmpty_toWellFormed : isNotEmpty (toWellFormed s) = isNotEmpty s := by
  rw [Bool.eq_iff_iff, isNotEmpty_iff, isNotEmpty_iff]
  have hspace : ∀ v, isSurrogate v → isWhitespace v = false := by
    intro v hv
    cases hw : isWhitespace v with
    | false => rfl
    | true => simp [isSurrogate_of_isWhitespace hw] at hv
  constructor
  · rintro ⟨u, hu, hw⟩
    rcases mem_toWellFormed hu with hu | ⟨-, v, hv, hs⟩
    · exact ⟨u, hu, hw⟩
    · exact ⟨v, hv, hspace v hs⟩
  · rintro ⟨u, hu, hw⟩
    rcases mem_toWellFormed_of_mem hu with hu | ⟨-, hr⟩
    · exact ⟨u, hu, hw⟩
    · exact ⟨REPLACEMENT, hr, by decide⟩

end HomelabApps.Library.Utf16
