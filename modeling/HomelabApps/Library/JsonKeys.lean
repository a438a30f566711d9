import HomelabApps.Library.Json
import Mathlib.Data.List.Pairwise
import Mathlib.Data.Nat.Digits.Defs

namespace HomelabApps.Library.Json

open HomelabApps.Library.Utf16

variable {s t k l : JsString} {u v w : UInt16} {n : Nat}

theorem codePoints_cons (u : UInt16) (s : JsString) :
    (∃ v r, s = v :: r ∧ isHigh u = true ∧ isLow v = true ∧
      codePoints (u :: s) = (0x10000 + (u.toNat - 0xD800) * 0x400 + (v.toNat - 0xDC00)) :: codePoints r) ∨
    codePoints (u :: s) = u.toNat :: codePoints s := by
  cases s with
  | nil => exact .inr rfl
  | cons v r =>
    by_cases hpair : (isHigh u && isLow v) = true
    · obtain ⟨hu, hv⟩ := Bool.and_eq_true_iff.mp hpair
      exact .inl ⟨v, r, rfl, hu, hv, by rw [codePoints, if_pos hpair]⟩
    · exact .inr (by rw [codePoints, if_neg hpair])

theorem toNat_of_isHigh (h : isHigh u = true) : 0xD800 ≤ u.toNat ∧ u.toNat ≤ 0xDBFF := by
  simpa [isHigh, UInt16.le_iff_toNat_le] using h

theorem toNat_of_isLow (h : isLow u = true) : 0xDC00 ≤ u.toNat ∧ u.toNat ≤ 0xDFFF := by
  simpa [isLow, UInt16.le_iff_toNat_le] using h

theorem codePoints_inj : codePoints s = codePoints t → s = t := by
  induction hlength : s.length using Nat.strong_induction_on generalizing s t with
  | _ m ih =>
    intro h
    cases s with
    | nil =>
      cases t with
      | nil => rfl
      | cons w t => rcases codePoints_cons w t with ⟨_, _, -, -, -, ht⟩ | ht <;> rw [ht] at h <;> cases h
    | cons u s =>
      cases t with
      | nil => rcases codePoints_cons u s with ⟨_, _, -, -, -, hs⟩ | hs <;> rw [hs] at h <;> cases h
      | cons w t =>
        have hu := u.toNat_lt
        have hw := w.toNat_lt
        rcases codePoints_cons u s with ⟨v, r, rfl, huHigh, hvLow, hs⟩ | hs
        · have hv := toNat_of_isLow hvLow
          have huPair := toNat_of_isHigh huHigh
          rcases codePoints_cons w t with ⟨x, q, rfl, hwHigh, hxLow, ht⟩ | ht
          · rw [hs, ht] at h
            obtain ⟨hpoint, hrest⟩ := List.cons.inj h
            have hx := toNat_of_isLow hxLow
            have hwPair := toNat_of_isHigh hwHigh
            have huw : u = w := UInt16.toNat_inj.mp (by omega)
            have hvx : v = x := UInt16.toNat_inj.mp (by omega)
            rw [huw, hvx, ih r.length (by rw [← hlength]; simp only [List.length_cons]; omega) rfl hrest]
          · rw [hs, ht] at h
            have hpoint := (List.cons.inj h).1
            omega
        · rcases codePoints_cons w t with ⟨x, q, rfl, hwHigh, hxLow, ht⟩ | ht
          · rw [hs, ht] at h
            have hpoint := (List.cons.inj h).1
            omega
          · rw [hs, ht] at h
            obtain ⟨hpoint, hrest⟩ := List.cons.inj h
            rw [UInt16.toNat_inj.mp hpoint, ih s.length (by simp [← hlength]) rfl hrest]

instance : Std.Total jsonbKeyLe where
  total a b := by
    rcases lt_trichotomy (utf8Length a) (utf8Length b) with hlt | heq | hgt
    · exact .inl (.inl hlt)
    · rcases le_total (codePoints a) (codePoints b) with hle | hle
      · exact .inl (.inr ⟨heq, hle⟩)
      · exact .inr (.inr ⟨heq.symm, hle⟩)
    · exact .inr (.inl hgt)

instance : IsTrans JsString jsonbKeyLe where
  trans a b c hab hbc := by
    rcases hab with hab | ⟨hab, hle⟩
    · rcases hbc with hbc | ⟨hbc, -⟩
      · exact .inl (hab.trans hbc)
      · exact .inl (hbc ▸ hab)
    · rcases hbc with hbc | ⟨hbc, hle'⟩
      · exact .inl (hab ▸ hbc)
      · exact .inr ⟨hab.trans hbc, hle.trans hle'⟩

instance : Std.Antisymm jsonbKeyLe where
  antisymm a b hab hba := by
    rcases hab with hab | ⟨hab, hle⟩
    · rcases hba with hba | ⟨hba, -⟩
      · exact absurd hba (lt_asymm hab)
      · exact absurd hab (hba ▸ lt_irrefl _)
    · rcases hba with hba | ⟨-, hle'⟩
      · exact absurd hba (hab ▸ lt_irrefl _)
      · exact codePoints_inj (le_antisymm hle hle')

def numeralDigits (key : JsString) : List Nat := (key.map fun u => u.toNat - 0x30).reverse

theorem foldl_numeral : k.foldl (fun n u => 10 * n + (u.toNat - 0x30)) 0 = Nat.ofDigits 10 (numeralDigits k) := by
  rw [Nat.ofDigits_eq_foldr, numeralDigits, List.foldr_reverse, List.foldl_map]
  simp only [Nat.cast_id, Nat.add_comm]

theorem numeralDigits_inj (hk : ∀ u ∈ k, 0x30 ≤ u ∧ u ≤ 0x39) (hl : ∀ u ∈ l, 0x30 ≤ u ∧ u ≤ 0x39)
    (h : numeralDigits k = numeralDigits l) : k = l := by
  have hback : ∀ {k : JsString}, (∀ u ∈ k, 0x30 ≤ u ∧ u ≤ 0x39) →
      ((numeralDigits k).reverse.map fun d => (d + 0x30).toUInt16) = k := by
    intro k hk
    rw [numeralDigits, List.reverse_reverse, List.map_map]
    refine (List.map_congr_left fun u hu => ?_).trans (List.map_id _)
    have hdigit := UInt16.le_iff_toNat_le.mp (hk u hu).1
    simp only [UInt16.reduceToNat] at hdigit
    rw [Function.comp_apply, Nat.sub_add_cancel hdigit]
    exact UInt16.ofNat_toNat
  rw [← hback hk, h, hback hl]

theorem arrayIndex_eq_some (h : arrayIndex k = some n) : k ≠ [] ∧ (∀ u ∈ k, 0x30 ≤ u ∧ u ≤ 0x39) ∧
    (k.head? ≠ some 0x30 ∨ k.length = 1) ∧ Nat.ofDigits 10 (numeralDigits k) = n := by
  rw [arrayIndex] at h
  simp only [Option.ite_none_right_eq_some, foldl_numeral] at h
  obtain ⟨⟨hne, hdigits, hzero, -⟩, hvalue⟩ := h
  refine ⟨hne, ?_, hzero, Option.some.inj hvalue⟩
  simpa using hdigits

theorem numeralDigits_eq (h : arrayIndex k = some n) :
    numeralDigits k = if n = 0 then [0] else Nat.digits 10 n := by
  obtain ⟨hne, hunits, hzero, hvalue⟩ := arrayIndex_eq_some h
  have hlt : ∀ d ∈ numeralDigits k, d < 10 := by
    intro d hd
    rw [numeralDigits, List.mem_reverse] at hd
    obtain ⟨u, hu, rfl⟩ := List.mem_map.mp hd
    have hdigit := UInt16.le_iff_toNat_le.mp (hunits u hu).2
    simp only [UInt16.reduceToNat] at hdigit
    omega
  cases k with
  | nil => exact absurd rfl hne
  | cons u s =>
    have hdigit := UInt16.le_iff_toNat_le.mp (hunits u List.mem_cons_self).1
    simp only [UInt16.reduceToNat] at hdigit
    by_cases hu : u.toNat - 0x30 = 0
    · -- a leading zero stands alone
      have hu' : u = 0x30 := UInt16.toNat_inj.mp (by simp only [UInt16.reduceToNat]; omega)
      have hs : s = [] := by
        rcases hzero with hzero | hzero
        · exact absurd (by rw [hu']; rfl) hzero
        · exact List.length_eq_zero_iff.mp (Nat.succ.inj hzero)
      rw [hs] at hvalue ⊢
      have hdigits : numeralDigits [u] = [0] := by rw [hu']; rfl
      rw [hdigits] at hvalue ⊢
      rw [if_pos (by rw [← hvalue]; rfl)]
    · have hlast : ∀ h : numeralDigits (u :: s) ≠ [], (numeralDigits (u :: s)).getLast h ≠ 0 := by
        intro h
        simpa [numeralDigits] using hu
      have hdigits := Nat.digits_ofDigits 10 (by decide) _ hlt hlast
      rw [hvalue] at hdigits
      have hn : n ≠ 0 := by
        rintro rfl
        rw [Nat.digits_zero] at hdigits
        simp [numeralDigits] at hdigits
      rw [if_neg hn, hdigits]

theorem arrayIndex_inj (hk : arrayIndex k = some n) (hl : arrayIndex l = some n) : k = l :=
  numeralDigits_inj (arrayIndex_eq_some hk).2.1 (arrayIndex_eq_some hl).2.1
    ((numeralDigits_eq hk).trans (numeralDigits_eq hl).symm)

section Sorting

variable {α : Type*} {compare : α → α → Ordering} [Std.TransCmp compare] {Q : α → α → Prop} {a b : α}
  {as : List α}

theorem compare_trans : IsTrans α fun a b => compare a b ≠ .gt where
  trans a b c hab hbc := by
    exact Ordering.isLE_iff_ne_gt.mp
      (Std.TransCmp.isLE_trans (Ordering.isLE_iff_ne_gt.mpr hab) (Ordering.isLE_iff_ne_gt.mpr hbc))

theorem pairwise_orderedInsert (h : ∀ b ∈ as, compare a b = .eq → Q a b)
    (hsorted : as.Pairwise fun a b => compare a b ≠ .gt ∧ (compare a b = .eq → Q a b)) :
    (as.orderedInsert (fun a b => compare a b ≠ .gt) a).Pairwise
      fun a b => compare a b ≠ .gt ∧ (compare a b = .eq → Q a b) := by
  induction as with
  | nil => exact List.pairwise_singleton _ _
  | cons b as ih =>
    obtain ⟨hfirst, hrest⟩ := List.pairwise_cons.mp hsorted
    rw [List.orderedInsert_cons]
    split
    · rename_i hab
      refine List.pairwise_cons.mpr ⟨fun c hc => ⟨?_, h c hc⟩, hsorted⟩
      rcases List.mem_cons.mp hc with rfl | hc
      · exact hab
      · exact compare_trans.trans a b c hab (hfirst c hc).1
    · rename_i hab
      have hlt : compare b a = .lt := Std.OrientedCmp.gt_iff_lt.mp (not_not.mp hab)
      refine List.pairwise_cons.mpr ⟨fun c hc => ?_, ih (fun c hc => h c (List.mem_cons_of_mem _ hc)) hrest⟩
      rcases (List.mem_orderedInsert _).mp hc with rfl | hc
      · exact ⟨by rw [hlt]; decide, fun heq => by rw [hlt] at heq; cases heq⟩
      · exact hfirst c hc

theorem pairwise_insertionSort_stable (h : as.Pairwise fun a b => compare a b = .eq → Q a b) :
    (as.insertionSort fun a b => compare a b ≠ .gt).Pairwise
      fun a b => compare a b ≠ .gt ∧ (compare a b = .eq → Q a b) := by
  induction as with
  | nil => exact .nil
  | cons a as ih =>
    obtain ⟨hfirst, hrest⟩ := List.pairwise_cons.mp h
    exact pairwise_orderedInsert (fun b hb => hfirst b ((List.mem_insertionSort _).mp hb)) (ih hrest)

theorem not_sublist_swap (h : as.Nodup) (hab : [a, b].Sublist as) : ¬ [b, a].Sublist as := by
  intro hba
  induction as with
  | nil => cases hab
  | cons c as ih =>
    obtain ⟨hc, hnodup⟩ := List.nodup_cons.mp h
    cases hab with
    | cons _ hab =>
      cases hba with
      | cons _ hba => exact ih hnodup hab hba
      | cons_cons _ hba => exact hc (hab.subset (List.mem_cons_of_mem _ List.mem_cons_self))
    | cons_cons _ hab =>
      cases hba with
      | cons _ hba => exact hc (hba.subset (List.mem_cons_of_mem _ List.mem_cons_self))
      | cons_cons _ hba => exact hc (hab.subset List.mem_cons_self)

end Sorting

def sortKeys (compare : JsString → JsString → Ordering) (keys : List JsString) : List JsString :=
  keys.insertionSort fun a b => compare a b ≠ .gt

def jsonbKeys (keys : List JsString) : List JsString := keys.insertionSort jsonbKeyLe

def indexKeys (keys : List JsString) : List JsString :=
  (keys.filter fun k => (arrayIndex k).isSome).insertionSort fun a b =>
    (arrayIndex a).getD 0 ≤ (arrayIndex b).getD 0

def nameKeys (keys : List JsString) : List JsString := keys.filter fun k => (arrayIndex k).isNone

def enumerateKeys (keys : List JsString) : List JsString := indexKeys keys ++ nameKeys keys

/-- Keys that compare equal stand as `jsonb` would put them; array indices are never compared. -/
def SettledKeys (compare : JsString → JsString → Ordering) (keys : List JsString) : Prop :=
  keys.Pairwise fun a b => arrayIndex a = none → arrayIndex b = none → compare a b = .eq → jsonbKeyLe a b

instance (compare : JsString → JsString → Ordering) (keys : List JsString) :
    Decidable (SettledKeys compare keys) := by
  unfold SettledKeys; infer_instance

section Keys

variable {compare : JsString → JsString → Ordering} {keys keys' : List JsString}

theorem indexKeys_perm (h : keys.Perm keys') : indexKeys keys = indexKeys keys' := by
  have htotal : Std.Total fun a b : JsString => (arrayIndex a).getD 0 ≤ (arrayIndex b).getD 0 :=
    ⟨fun a b => Nat.le_total _ _⟩
  have htrans : IsTrans JsString fun a b => (arrayIndex a).getD 0 ≤ (arrayIndex b).getD 0 :=
    ⟨fun a b c => Nat.le_trans⟩
  refine List.Perm.eq_of_pairwise ?_ (List.pairwise_insertionSort _ _) (List.pairwise_insertionSort _ _)
    (((List.perm_insertionSort _ _).trans (h.filter _)).trans (List.perm_insertionSort _ _).symm)
  intro a b ha hb hab hba
  have hindex : ∀ {keys : List JsString} {k : JsString}, k ∈ indexKeys keys →
      arrayIndex k = some ((arrayIndex k).getD 0) := by
    intro keys k hk
    obtain ⟨n, hn⟩ := Option.isSome_iff_exists.mp (List.mem_filter.mp ((List.mem_insertionSort _).mp hk)).2
    rw [hn, Option.getD_some]
  have hsame := Nat.le_antisymm hab hba
  exact arrayIndex_inj (hindex ha) (hsame ▸ hindex hb)

theorem enumerateKeys_perm : (enumerateKeys keys).Perm keys := by
  refine ((List.perm_insertionSort _ _).append_right _).trans ?_
  have h := List.filter_append_perm (fun k => (arrayIndex k).isSome) keys
  simpa [nameKeys, Option.not_isSome] using h

theorem sublist_enumerateKeys {a b : JsString} (h : [a, b].Sublist keys) (ha : arrayIndex a = none)
    (hb : arrayIndex b = none) : [a, b].Sublist (enumerateKeys keys) := by
  have hfilter := h.filter fun k => (arrayIndex k).isNone
  rw [List.filter_cons_of_pos (by simp [ha]), List.filter_cons_of_pos (by simp [hb]), List.filter_nil] at hfilter
  exact hfilter.trans (List.sublist_append_right _ _)

theorem settledKeys_jsonbKeys : SettledKeys compare (jsonbKeys keys) :=
  (List.pairwise_insertionSort jsonbKeyLe keys).imp fun hab _ _ _ => hab

variable [Std.TransCmp compare]

theorem nameKeys_sorted (h : SettledKeys compare keys) :
    (nameKeys (sortKeys compare keys)).Pairwise fun a b =>
      compare a b ≠ .gt ∧ (compare a b = .eq → jsonbKeyLe a b) := by
  have hties : keys.Pairwise fun a b => compare a b = .eq →
      (arrayIndex a = none → arrayIndex b = none → jsonbKeyLe a b) := h.imp fun hab heq ha hb => hab ha hb heq
  have hstable := pairwise_insertionSort_stable hties
  refine (hstable.filter _).imp_of_mem fun {a b} ha hb hab => ⟨hab.1, fun heq => hab.2 heq ?_ ?_⟩
  · simpa using (List.mem_filter.mp ha).2
  · simpa using (List.mem_filter.mp hb).2

theorem enumerateKeys_eq_iff (hnodup : keys.Nodup) :
    enumerateKeys (sortKeys compare (jsonbKeys keys)) = enumerateKeys (sortKeys compare keys) ↔
      SettledKeys compare keys := by
  have hperm : (sortKeys compare (jsonbKeys keys)).Perm (sortKeys compare keys) :=
    ((List.perm_insertionSort _ _).trans (List.perm_insertionSort _ _)).trans (List.perm_insertionSort _ _).symm
  constructor
  · intro heq
    refine List.pairwise_iff_forall_sublist.mpr fun {a b} hab ha hb hcompare => ?_
    refine (Std.Total.total (r := jsonbKeyLe) a b).resolve_right fun hba => ?_
    have hswapped : [b, a].Sublist (sortKeys compare (jsonbKeys keys)) := by
      refine List.pair_sublist_insertionSort ?_ (List.pair_sublist_insertionSort' hba ?_)
      · rw [Std.OrientedCmp.eq_symm hcompare]
        decide
      · exact (List.Perm.swap a b []).subperm.trans hab.subperm
    have hkept : [a, b].Sublist (sortKeys compare keys) := by
      refine List.pair_sublist_insertionSort ?_ hab
      rw [hcompare]
      decide
    have hnames : (enumerateKeys (sortKeys compare keys)).Nodup :=
      enumerateKeys_perm.nodup_iff.mpr ((List.perm_insertionSort _ _).nodup_iff.mpr hnodup)
    refine not_sublist_swap hnames (sublist_enumerateKeys hkept ha hb) ?_
    exact heq ▸ sublist_enumerateKeys hswapped hb ha
  · intro hsettled
    rw [enumerateKeys, enumerateKeys, indexKeys_perm hperm]
    refine congrArg _ (List.Perm.eq_of_pairwise ?_ (nameKeys_sorted settledKeys_jsonbKeys)
      (nameKeys_sorted hsettled) (hperm.filter _))
    rintro a b - - ⟨hab, hjsonb⟩ ⟨hba, hjsonb'⟩
    have heq : compare a b = .eq := by
      cases hcompare : compare a b with
      | eq => rfl
      | gt => exact absurd hcompare hab
      | lt => exact absurd (Std.OrientedCmp.gt_iff_lt.mpr hcompare) hba
    exact Std.Antisymm.antisymm (r := jsonbKeyLe) a b (hjsonb heq) (hjsonb' (Std.OrientedCmp.eq_symm heq))

end Keys

end HomelabApps.Library.Json
