import HomelabApps.Library.Utf16

namespace HomelabApps.KnowledgeBase

open HomelabApps.Library.Utf16

def isLetter (u : UInt16) : Bool := (0x41 ≤ u && u ≤ 0x5A) || (0x61 ≤ u && u ≤ 0x7A)

def isDigit (u : UInt16) : Bool := 0x30 ≤ u && u ≤ 0x39

def isWordUnit (u : UInt16) : Bool := isLetter u || isDigit u || u = 0x5F

def isUsernameUnit (u : UInt16) : Bool := isWordUnit u || u = 0x2E || u = 0x40 || u = 0x2B || u = 0x2D

def isOnBehalfOf (username : JsString) : Bool :=
  1 ≤ username.length && username.length ≤ 150 && username.all isUsernameUnit

variable {u : UInt16} {username : JsString}

theorem ascii_of_isUsernameUnit (h : isUsernameUnit u) : 0x2B ≤ u.toNat ∧ u.toNat ≤ 0x7A := by
  simp only [isUsernameUnit, isWordUnit, isLetter, isDigit, Bool.or_eq_true, Bool.and_eq_true, decide_eq_true_eq,
    UInt16.le_iff_toNat_le, ← UInt16.toNat_inj] at h
  simp at h
  omega

theorem isWhitespace_of_isUsernameUnit (h : isUsernameUnit u) : isWhitespace u = false := by
  have hu := ascii_of_isUsernameUnit h
  rw [← Bool.not_eq_true]
  intro hwhite
  simp only [isWhitespace, Bool.or_eq_true, Bool.and_eq_true, decide_eq_true_eq, UInt16.le_iff_toNat_le,
    ← UInt16.toNat_inj] at hwhite
  simp at hwhite
  omega

theorem isUsernameUnit_of_isOnBehalfOf (h : isOnBehalfOf username) : ∀ u ∈ username, isUsernameUnit u := by
  rw [isOnBehalfOf, Bool.and_eq_true] at h
  exact List.all_eq_true.mp h.2

end HomelabApps.KnowledgeBase
