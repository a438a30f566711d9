import HomelabApps.KnowledgeBase.NoteRenderService
import Mathlib.Data.List.Chain

namespace HomelabApps.KnowledgeBase.Notes

open HomelabApps.Library.Utf16
open Markdown (HYPHEN filterPoints)

variable {s t title : JsString} {start run : Bool} {titles : TitleUnicode}

structure Tidy (s : JsString) : Prop where
  units : ∀ u ∈ s, isSlugUnit u = true ∨ u = HYPHEN
  single : s.IsChain fun u v => ¬(u = HYPHEN ∧ v = HYPHEN)

theorem tidy_nil : Tidy [] := ⟨List.forall_mem_nil _, List.IsChain.nil⟩

theorem Tidy.part (h : Tidy s) (hpart : t <:+: s) : Tidy t where
  units u hu := h.units u (hpart.subset hu)
  single := List.IsChain.infix (h.single) hpart

theorem hyphen_of_isSlugUnit {u : UInt16} (h : isSlugUnit u = true) : u ≠ HYPHEN := by
  rintro rfl
  cases h

theorem tidy_hyphenate : Tidy (hyphenate run s) ∧ (run = true → (hyphenate run s).head? ≠ some HYPHEN) := by
  induction s generalizing run with
  | nil => exact ⟨tidy_nil, fun _ h => by cases h⟩
  | cons u s ih =>
    rw [hyphenate]
    split
    · rename_i hu
      have hrest : Tidy (hyphenate false s) := ih.1
      refine ⟨⟨List.forall_mem_cons.mpr ⟨.inl hu, hrest.units⟩, ?_⟩, ?_⟩
      · rw [List.isChain_cons]
        exact ⟨fun v _ hboth => hyphen_of_isSlugUnit hu hboth.1, hrest.single⟩
      · intro _ hhead
        exact hyphen_of_isSlugUnit hu (Option.some.inj hhead)
    · obtain ⟨hrest, hhead⟩ : Tidy (hyphenate true s) ∧ (true = true → (hyphenate true s).head? ≠ some HYPHEN) := ih
      split
      · exact ⟨hrest, fun _ => hhead rfl⟩
      · rename_i hrun
        refine ⟨⟨List.forall_mem_cons.mpr ⟨.inr rfl, hrest.units⟩, ?_⟩, fun h => absurd h hrun⟩
        rw [List.isChain_cons]
        exact ⟨fun v hv hboth => hhead rfl (hboth.2 ▸ hv), hrest.single⟩

theorem isKebab_of_tidy (h : Tidy s) (hstart : start = true → s ≠ [] ∧ s.head? ≠ some HYPHEN)
    (hend : s.getLast? ≠ some HYPHEN) : isKebab start s = true := by
  induction s generalizing start with
  | nil =>
    cases start with
    | true => exact absurd rfl (hstart rfl).1
    | false => rfl
  | cons u s ih =>
    have hrest : Tidy s := h.part (List.suffix_cons u s).isInfix
    have hlast : s ≠ [] → s.getLast? ≠ some HYPHEN := by
      intro hne hlast
      rw [List.getLast?_cons, hlast] at hend
      exact hend rfl
    rw [isKebab]
    split
    · refine ih hrest (fun h => by cases h) ?_
      cases s with
      | nil => exact fun h => by cases h
      | cons v s => exact hlast (List.cons_ne_nil v s)
    · rename_i hu
      have hhyphen : u = HYPHEN := (h.units u List.mem_cons_self).resolve_left hu
      have hwithin : start = false := by
        cases start with
        | true => exact absurd (congrArg some hhyphen) (hstart rfl).2
        | false => rfl
      have hne : s ≠ [] := by
        rintro rfl
        exact hend (congrArg some hhyphen)
      rw [hhyphen, hwithin]
      simp only [decide_true, Bool.not_false, Bool.and_self, Bool.true_and]
      refine ih hrest (fun _ => ⟨hne, fun hhead => ?_⟩) (hlast hne)
      have hchain := (List.isChain_cons.mp h.single).1 HYPHEN hhead
      exact hchain ⟨hhyphen, rfl⟩

theorem getLast_rdropWhile (s : JsString) : (s.rdropWhile (· = HYPHEN)).getLast? ≠ some HYPHEN := by
  intro h
  have hne : s.rdropWhile (· = HYPHEN) ≠ [] := fun hnil => by
    rw [hnil] at h
    cases h
  have hlast := List.rdropWhile_last_not (· = HYPHEN) s hne
  rw [List.getLast?_eq_some_getLast hne] at h
  exact hlast (by simpa using Option.some.inj h)

theorem head_dropWhile (s : JsString) : (s.dropWhile (· = HYPHEN)).head? ≠ some HYPHEN := by
  intro h
  have hnot := List.head?_dropWhile_not (· = HYPHEN) s
  rw [h] at hnot
  simp at hnot

theorem head_of_part (hpart : t <+: s) (hne : t ≠ []) : t.head? = s.head? := by
  obtain ⟨rest, rfl⟩ := hpart
  cases t with
  | nil => exact absurd rfl hne
  | cons u t => rfl

structure Trimmed (s : JsString) : Prop extends Tidy s where
  head : s.head? ≠ some HYPHEN
  last : s.getLast? ≠ some HYPHEN

theorem Trimmed.isKebab (h : Trimmed s) (hne : s ≠ []) : isKebab true s = true :=
  isKebab_of_tidy h.toTidy (fun _ => ⟨hne, h.head⟩) h.last

theorem Trimmed.part (h : Trimmed s) (hpart : t <+: s) (hlast : t.getLast? ≠ some HYPHEN) : Trimmed t where
  toTidy := Tidy.part h.toTidy hpart.isInfix
  last := hlast
  head hhead := by
    have hne : t ≠ [] := by
      rintro rfl
      cases hhead
    rw [head_of_part hpart hne] at hhead
    exact h.head hhead

theorem Tidy.trimmed (h : Tidy s) : Trimmed (trimHyphens s) := by
  have hdropped : Tidy (s.dropWhile (· = HYPHEN)) := h.part (List.dropWhile_suffix _).isInfix
  have hpart : trimHyphens s <+: s.dropWhile (· = HYPHEN) := List.rdropWhile_prefix _ _
  refine ⟨hdropped.part hpart.isInfix, fun hhead => ?_, getLast_rdropWhile _⟩
  have hne : trimHyphens s ≠ [] := fun hnil => by
    rw [hnil] at hhead
    cases hhead
  rw [head_of_part hpart hne] at hhead
  exact head_dropWhile s hhead

def fullSlug (titles : TitleUnicode) (title : JsString) : JsString :=
  trimHyphens (hyphenate false
    (titles.unicode.toLowerCase (filterPoints (fun n => !titles.isMark n) (titles.nfkd title))))

theorem trimmed_fullSlug : Trimmed (fullSlug titles title) := tidy_hyphenate.1.trimmed

def firstWord (s : JsString) : JsString := s.takeWhile (· ≠ HYPHEN)

inductive KeptOf (full : JsString) : JsString → Prop
  | whole : full.length ≤ SLUG_MAX → KeptOf full full
  | words {kept rest : JsString} : SLUG_MAX < full.length → full = kept ++ HYPHEN :: rest → kept.length ≤ SLUG_MAX →
      (∀ kept' rest', full = kept' ++ HYPHEN :: rest' → kept'.length ≤ SLUG_MAX → kept'.length ≤ kept.length) →
      KeptOf full kept
  | start : SLUG_MAX < (firstWord full).length → KeptOf full (full.take SLUG_MAX)

theorem lastIndexOf_of_notMem {u : UInt16} (h : u ∉ s) : lastIndexOf u s = none := by
  rw [lastIndexOf, List.idxOf?_eq_none_iff.mpr (by rwa [List.mem_reverse]), Option.map_none]

theorem idxOf?_append {u : UInt16} (h : u ∉ s) : (s ++ u :: t).idxOf? u = some s.length := by
  induction s with
  | nil => simp [List.idxOf?_cons]
  | cons v s ih =>
    rw [List.mem_cons, not_or] at h
    have hne : (v == u) = false := beq_eq_false_iff_ne.mpr (Ne.symm h.1)
    rw [List.cons_append, List.idxOf?_cons, hne, ih h.2]
    rfl

theorem lastIndexOf_append {u : UInt16} (h : u ∉ t) : lastIndexOf u (s ++ u :: t) = some s.length := by
  have hindex : (s ++ u :: t).reverse.idxOf? u = some t.length := by
    rw [List.reverse_append, List.reverse_cons, List.append_assoc, List.singleton_append,
      idxOf?_append (by rwa [List.mem_reverse]), List.length_reverse]
  rw [lastIndexOf, hindex, Option.map_some, List.length_append, List.length_cons]
  congr 1
  omega

theorem exists_last {u : UInt16} (h : u ∈ s) : ∃ before after, s = before ++ u :: after ∧ u ∉ after := by
  obtain ⟨after, before, hs, hnot⟩ := List.eq_append_cons_of_mem (List.mem_reverse.mpr h)
  refine ⟨before.reverse, after.reverse, ?_, by rwa [List.mem_reverse]⟩
  have := congrArg List.reverse hs
  simpa using this

theorem rdropWhile_of_last (h : s.getLast? ≠ some HYPHEN) : s.rdropWhile (· = HYPHEN) = s := by
  cases s using List.reverseRecOn with
  | nil => rfl
  | append_singleton s u =>
    rw [List.getLast?_concat] at h
    rw [List.rdropWhile_concat_neg]
    simpa using h

theorem Tidy.last_of_hyphen (h : Tidy (s ++ HYPHEN :: t)) : s.getLast? ≠ some HYPHEN := by
  intro hlast
  have hchain := List.isChain_append.mp h.single
  exact hchain.2.2 HYPHEN hlast HYPHEN rfl ⟨rfl, rfl⟩

theorem firstWord_of_notMem (h : HYPHEN ∉ s) : firstWord (s ++ t) = s ++ firstWord t := by
  apply List.takeWhile_append_of_pos
  intro u hu
  rw [decide_eq_true_eq]
  exact fun heq => h (heq ▸ hu)

theorem length_le_of_last {before after before' : JsString} (after' : JsString) (h : s = before ++ HYPHEN :: after)
    (hnot : HYPHEN ∉ after) (h' : s ++ t = before' ++ HYPHEN :: after') (hfits : before'.length < s.length) :
    before'.length ≤ before.length := by
  by_contra hlonger
  have hat : s[before'.length]? = some HYPHEN := by
    have hleft : (s ++ t)[before'.length]? = s[before'.length]? := List.getElem?_append_left hfits
    rw [← hleft, h', List.getElem?_append_right (Nat.le_refl _), Nat.sub_self]
    rfl
  obtain ⟨i, hi⟩ := Nat.exists_eq_add_of_lt (Nat.lt_of_not_le hlonger)
  rw [h, List.getElem?_append_right (by omega), show before'.length - before.length = i + 1 by omega,
    List.getElem?_cons_succ] at hat
  exact hnot (List.mem_of_getElem? hat)

theorem keptOf_slug : KeptOf (fullSlug titles title) (slug titles title) := by
  have htrimmed : Trimmed (fullSlug titles title) := trimmed_fullSlug
  rw [slug, ← fullSlug]
  change KeptOf (fullSlug titles title) (if (fullSlug titles title).length ≤ SLUG_MAX then fullSlug titles title else _)
  generalize fullSlug titles title = full at htrimmed
  split
  · rename_i hshort
    exact .whole hshort
  · rename_i hlong
    rw [Nat.not_le] at hlong
    have hfull : full.take (SLUG_MAX + 1) ++ full.drop (SLUG_MAX + 1) = full := List.take_append_drop _ _
    have hlength : (full.take (SLUG_MAX + 1)).length = SLUG_MAX + 1 := List.length_take_of_le hlong
    by_cases hmem : HYPHEN ∈ full.take (SLUG_MAX + 1)
    · obtain ⟨before, after, hcut, hnot⟩ := exists_last hmem
      rw [hcut] at hfull hlength
      rw [List.append_assoc, List.cons_append] at hfull
      have hbefore : 0 < before.length := by
        apply List.length_pos_iff.mpr
        rintro rfl
        exact htrimmed.head (hfull ▸ rfl)
      have hlast : before.getLast? ≠ some HYPHEN := by
        apply Tidy.last_of_hyphen (t := after ++ full.drop (SLUG_MAX + 1))
        rw [hfull]
        exact htrimmed.toTidy
      dsimp only
      rw [hcut, lastIndexOf_append hnot, Option.getD_some, if_pos hbefore, List.take_left, rdropWhile_of_last hlast]
      refine .words hlong hfull.symm ?_ ?_
      · rw [List.length_append, List.length_cons] at hlength
        omega
      · intro before' after' hfull' hfits
        have hwhole : full.take (SLUG_MAX + 1) ++ full.drop (SLUG_MAX + 1) = before' ++ HYPHEN :: after' := by
          rw [List.take_append_drop, hfull']
        apply length_le_of_last after' hcut hnot hwhole
        rw [hcut, hlength]
        omega
    · have hnot : HYPHEN ∉ full.take SLUG_MAX := fun h =>
        hmem ((List.take_subset_take_left full (Nat.le_succ _)) h)
      have hlast : (full.take SLUG_MAX).getLast? ≠ some HYPHEN := fun h => hnot (List.mem_of_getLast? h)
      dsimp only
      rw [lastIndexOf_of_notMem hmem, Option.getD_none, if_neg (Nat.lt_irrefl 0), rdropWhile_of_last hlast]
      apply KeptOf.start
      rw [← hfull, firstWord_of_notMem hmem, List.length_append, hlength]
      omega

theorem notMem_firstWord : HYPHEN ∉ firstWord s := by
  intro h
  have := List.mem_takeWhile_imp h
  simp at this

theorem KeptOf.trimmed (h : KeptOf s t) (hs : Trimmed s) : Trimmed t := by
  cases h with
  | whole => exact hs
  | words _ heq =>
    have htidy := hs.toTidy
    rw [heq] at htidy
    exact hs.part ⟨_, heq.symm⟩ htidy.last_of_hyphen
  | start hlong =>
    have hpart : s.take SLUG_MAX <+: firstWord s :=
      List.prefix_of_prefix_length_le (List.take_prefix _ _) (List.takeWhile_prefix _)
        (Nat.le_trans (List.length_take_le _ _) (Nat.le_of_lt hlong))
    exact hs.part (List.take_prefix _ _) fun h => notMem_firstWord (hpart.subset (List.mem_of_getLast? h))

theorem KeptOf.length_le (h : KeptOf s t) : t.length ≤ SLUG_MAX := by
  cases h with
  | whole hshort => exact hshort
  | words _ _ hfits => exact hfits
  | start => exact List.length_take_le _ _

theorem isKebab_slug (hne : slug titles title ≠ []) : isKebab true (slug titles title) = true :=
  (keptOf_slug.trimmed trimmed_fullSlug).isKebab hne

structure TitleUnicode.OnAscii (titles : TitleUnicode) : Prop where
  nfkd : ∀ s, (∀ u ∈ s, u.toNat < 0x80) → titles.nfkd s = s
  isMark : ∀ n < 0x80, titles.isMark n = false
  toLowerCase : ∀ s, (∀ u ∈ s, u.toNat < 0x80 ∧ ¬(0x41 ≤ u.toNat ∧ u.toNat ≤ 0x5A)) →
    titles.unicode.toLowerCase s = s

theorem Tidy.ascii (h : Tidy s) : ∀ u ∈ s, u.toNat < 0x80 ∧ ¬(0x41 ≤ u.toNat ∧ u.toNat ≤ 0x5A) := by
  intro u hu
  cases h.units u hu with
  | inl hunit =>
    simp only [isSlugUnit, isDigit, Bool.or_eq_true, Bool.and_eq_true, decide_eq_true_eq, UInt16.le_iff_toNat_le,
      UInt16.reduceToNat] at hunit
    omega
  | inr hhyphen =>
    rw [hhyphen]
    decide

theorem filterPoints_of_ascii {p : Nat → Bool} (hs : ∀ u ∈ s, u.toNat < 0x80) (hp : ∀ n < 0x80, p n = true) :
    filterPoints p s = s := by
  induction s with
  | nil => rfl
  | cons u s ih =>
    rw [List.forall_mem_cons] at hs
    have hhigh : isHigh u = false := by
      rw [isHigh, Bool.and_eq_false_iff, decide_eq_false_iff_not, UInt16.le_iff_toNat_le]
      exact .inl (Nat.not_le_of_lt (Nat.lt_trans hs.1 (by decide)))
    cases s with
    | nil => rw [filterPoints, if_pos (hp _ hs.1)]
    | cons v s => rw [filterPoints, hhigh, Bool.false_and, if_neg Bool.false_ne_true, if_pos (hp _ hs.1), ih hs.2]

theorem hyphenate_of_tidy (h : Tidy s) (hrun : run = true → s.head? ≠ some HYPHEN) : hyphenate run s = s := by
  induction s generalizing run with
  | nil => rfl
  | cons u s ih =>
    have hrest : Tidy s := h.part (List.suffix_cons u s).isInfix
    rw [hyphenate]
    split
    · rw [ih hrest fun h => by cases h]
    · rename_i hunit
      have hhyphen : u = HYPHEN := (h.units u List.mem_cons_self).resolve_left hunit
      have hnext : s.head? ≠ some HYPHEN := fun hhead =>
        (List.isChain_cons.mp h.single).1 HYPHEN hhead ⟨hhyphen, rfl⟩
      split
      · rename_i hwithin
        exact absurd (congrArg some hhyphen) (hrun hwithin)
      · rw [ih hrest fun _ => hnext, hhyphen]

theorem trimHyphens_of_trimmed (h : Trimmed s) : trimHyphens s = s := by
  have hstart : s.dropWhile (· = HYPHEN) = s := by
    cases s with
    | nil => rfl
    | cons u s =>
      apply List.dropWhile_cons_of_neg
      rw [decide_eq_true_eq]
      exact fun heq => h.head (congrArg some heq)
  rw [trimHyphens, hstart, rdropWhile_of_last h.last]

theorem fullSlug_of_trimmed (laws : titles.OnAscii) (h : Trimmed s) : fullSlug titles s = s := by
  have hascii := h.toTidy.ascii
  have hunits : ∀ u ∈ s, u.toNat < 0x80 := fun u hu => (hascii u hu).1
  rw [fullSlug, laws.nfkd s hunits, filterPoints_of_ascii hunits fun n hn => by rw [laws.isMark n hn]; rfl,
    laws.toLowerCase s hascii, hyphenate_of_tidy h.toTidy (fun h => by cases h), trimHyphens_of_trimmed h]

theorem slug_stable (titles : TitleUnicode) (title : JsString) (laws : titles.OnAscii) :
    (slug titles title).length ≤ SLUG_MAX ∧
    (slug titles title = [] ∨ isKebab true (slug titles title) = true) ∧
    KeptOf (fullSlug titles title) (slug titles title) ∧
    slug titles (slug titles title) = slug titles title := by
  have hkept : KeptOf (fullSlug titles title) (slug titles title) := keptOf_slug
  have htrimmed : Trimmed (slug titles title) := hkept.trimmed trimmed_fullSlug
  refine ⟨hkept.length_le, ?_, hkept, ?_⟩
  · cases hslug : slug titles title with
    | nil => exact .inl rfl
    | cons u s => exact .inr (hslug ▸ isKebab_slug (hslug ▸ List.cons_ne_nil u s))
  · rw [slug, ← fullSlug, fullSlug_of_trimmed laws htrimmed, if_pos hkept.length_le]

def latinTitles : TitleUnicode where
  unicode := ascii
  nfkd s := s
  isMark n := 0x300 ≤ n && n ≤ 0x36F

theorem latinTitles_onAscii : latinTitles.OnAscii where
  nfkd _ _ := rfl
  isMark n hn := by
    rw [latinTitles, Bool.and_eq_false_iff, decide_eq_false_iff_not]
    exact .inl (Nat.not_le_of_lt (Nat.lt_trans hn (by decide)))
  toLowerCase s hs := by
    calc s.map (fun u => if 0x41 ≤ u ∧ u ≤ 0x5A then u + 0x20 else u) = s.map id := by
          apply List.map_congr_left
          intro u hu
          apply if_neg
          intro hupper
          rw [UInt16.le_iff_toNat_le, UInt16.le_iff_toNat_le] at hupper
          exact (hs u hu).2 hupper
      _ = s := List.map_id s

theorem slug_stable_long : (slug latinTitles
    (utf16 "One-off work in an API image runs through dist cli js and a small dispatcher")).length ≤ SLUG_MAX ∧
    slug latinTitles (slug latinTitles (utf16 "A `dist/cli.js` run")) = utf16 "a-dist-cli-js-run" := by
  have hlong := slug_stable latinTitles
    (utf16 "One-off work in an API image runs through dist cli js and a small dispatcher") latinTitles_onAscii
  have hshort := slug_stable latinTitles (utf16 "A `dist/cli.js` run") latinTitles_onAscii
  exact ⟨hlong.1, hshort.2.2.2.trans (by decide)⟩

end HomelabApps.KnowledgeBase.Notes
