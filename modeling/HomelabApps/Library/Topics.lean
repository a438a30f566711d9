import HomelabApps.Library.Utf16

namespace HomelabApps.Library.Topics

open HomelabApps.Library.Utf16

def SLASH : UInt16 := 0x2F

def PLUS : UInt16 := 0x2B

def HASH : UInt16 := 0x23

def DOLLAR : UInt16 := 0x24

/-- `+` stands for one level, a last `#` for all that are left. -/
def matchesLevels : List JsString → List JsString → Bool
  | [], levels => levels.isEmpty
  | wanted :: pattern, [] => wanted = [HASH] && pattern.isEmpty
  | wanted :: pattern, level :: levels =>
    (wanted = [HASH] && pattern.isEmpty) || ((wanted = [PLUS] || wanted = level) && matchesLevels pattern levels)

/-- No wildcard stands for the start of a topic of the server's own. -/
def matchesFilter (pattern topic : JsString) : Bool :=
  !(topic.head? = some DOLLAR && (pattern.head? = some PLUS || pattern.head? = some HASH)) &&
    matchesLevels (pattern.splitOn SLASH) (topic.splitOn SLASH)

variable {pattern levels shared : List JsString} {before level after : JsString}

theorem matchesLevels_self : matchesLevels levels levels = true := by
  induction levels with
  | nil => rfl
  | cons level levels ih => simp [matchesLevels, ih]

theorem matchesLevels_append (h : matchesLevels pattern levels = true) :
    matchesLevels (shared ++ pattern) (shared ++ levels) = true := by
  induction shared with
  | nil => exact h
  | cons level shared ih => simp [matchesLevels, ih]

theorem matchesFilter_level (hplus : PLUS ∉ before) (hhash : HASH ∉ before) (hlevel : SLASH ∉ level) :
    matchesFilter (before ++ SLASH :: PLUS :: SLASH :: after) (before ++ SLASH :: (level ++ SLASH :: after)) = true := by
  have hhead : ∀ v ∈ [PLUS, HASH], v ∉ before → (before ++ SLASH :: PLUS :: SLASH :: after).head? ≠ some v := by
    intro v hv hnot h
    cases before with
    | nil =>
      have hslash : SLASH ∈ [PLUS, HASH] := Option.some.inj h ▸ hv
      exact absurd hslash (by decide)
    | cons u before => exact hnot (Option.some.inj h ▸ List.mem_cons_self)
  have hopen : ((before ++ SLASH :: PLUS :: SLASH :: after).head? = some PLUS ||
      (before ++ SLASH :: PLUS :: SLASH :: after).head? = some HASH : Bool) = false := by
    rw [Bool.or_eq_false_iff, decide_eq_false_iff_not, decide_eq_false_iff_not]
    exact ⟨hhead PLUS (by decide) hplus, hhead HASH (by decide) hhash⟩
  have hpattern : (before ++ SLASH :: PLUS :: SLASH :: after).splitOn SLASH =
      before.splitOn SLASH ++ ([PLUS] :: after.splitOn SLASH) := by
    have hplus : ([PLUS] ++ SLASH :: after).splitOn SLASH = [PLUS] :: after.splitOn SLASH :=
      List.splitOn_append_cons_self_of_not_mem (by decide) after
    rw [List.splitOn_append_cons_self, ← hplus]
    rfl
  have htopic : (before ++ SLASH :: (level ++ SLASH :: after)).splitOn SLASH =
      before.splitOn SLASH ++ (level :: after.splitOn SLASH) := by
    rw [List.splitOn_append_cons_self, List.splitOn_append_cons_self_of_not_mem hlevel]
  have hlevels : matchesLevels ([PLUS] :: after.splitOn SLASH) (level :: after.splitOn SLASH) = true := by
    simp [matchesLevels, matchesLevels_self]
  rw [matchesFilter, hopen, Bool.and_false, hpattern, htopic, matchesLevels_append hlevels]
  rfl

end HomelabApps.Library.Topics
