import HomelabApps.KnowledgeBase.Markdown.GithubSlugger
import HomelabApps.Library.Json

namespace HomelabApps.KnowledgeBase

open HomelabApps.Library.Utf16
open HomelabApps.Library.Json (Value)
open Markdown

def isHex (u : UInt16) : Bool := (0x30 ≤ u && u ≤ 0x39) || (0x61 ≤ u && u ≤ 0x66)

variable {s : JsString}

theorem toWellFormed_of_hex (h : ∀ u ∈ s, isHex u) : toWellFormed s = s := by
  have hsurrogate : ∀ u ∈ s, isSurrogate u = false := by
    intro u hu
    have := h u hu
    simp only [isHex, Bool.or_eq_true, Bool.and_eq_true, decide_eq_true_eq, UInt16.le_iff_toNat_le,
      UInt16.reduceToNat] at this
    simp only [isSurrogate, Bool.and_eq_false_iff, decide_eq_false_iff_not, UInt16.le_iff_toNat_le,
      UInt16.reduceToNat]
    omega
  simpa [toWellFormed] using toWellFormed_append (s := []) hsurrogate

/-- What the service takes from its runtime and its packages. `sha256` is the hex digest of a text's
UTF-8 encoding. -/
structure Platform where
  sha256 : JsString → JsString
  sha256_hex : ∀ s, ∀ u ∈ sha256 s, isHex u
  unicode : Unicode
  parseYaml : JsString → Except String Value
  localeCompare : JsString → JsString → Ordering

/-- Digests that tell any two texts apart, none of which starts with a digit other than 0. -/
def unaryDigest (s : JsString) : JsString :=
  0x30 :: s.flatMap fun u => List.replicate u.toNat 0x31 ++ [0x30]

def asciiLower (s : JsString) : JsString :=
  s.map fun u => if 0x41 ≤ u ∧ u ≤ 0x5A then u + 0x20 else u

def ascii : Unicode where
  toLowerCase := asciiLower
  nul_toLowerCase s h := by
    obtain ⟨u, hu, heq⟩ := List.mem_map.mp h
    split at heq
    · rename_i hupper
      rw [UInt16.le_iff_toNat_le, UInt16.le_iff_toNat_le] at hupper
      have := congrArg UInt16.toNat heq
      simp only [UInt16.toNat_add, UInt16.reduceToNat, NUL] at this hupper
      omega
    · exact heq ▸ hu
  isWordPoint n := (0x30 ≤ n && n ≤ 0x39) || (0x41 ≤ n && n ≤ 0x5A) || (0x61 ≤ n && n ≤ 0x7A) || n = 0x5F

theorem unaryDigest_hex (s : JsString) : ∀ u ∈ unaryDigest s, isHex u := by
  intro u hu
  rcases List.mem_cons.mp hu with rfl | hu
  · decide
  obtain ⟨v, -, hu⟩ := List.mem_flatMap.mp hu
  rcases List.mem_append.mp hu with hu | hu
  · rw [List.eq_of_mem_replicate hu]
    decide
  · rw [List.mem_singleton.mp hu]
    decide

theorem mem_of_lookup {β : Type} {entries : List (JsString × β)} {s : JsString} {b : β}
    (h : entries.lookup s = some b) : (s, b) ∈ entries := by
  obtain ⟨before, after, rfl, -⟩ := List.lookup_eq_some_iff.mp h
  exact List.mem_append_right _ List.mem_cons_self

theorem replicate_append_inj {m n : Nat} {s t : JsString}
    (h : List.replicate m 0x31 ++ 0x30 :: s = List.replicate n 0x31 ++ 0x30 :: t) : m = n ∧ s = t := by
  induction m generalizing n with
  | zero =>
    cases n with
    | zero => simpa using h
    | succ n => simp [List.replicate_succ] at h
  | succ m ih =>
    cases n with
    | zero => simp [List.replicate_succ] at h
    | succ n =>
      simp only [List.replicate_succ, List.cons_append, List.cons.injEq, true_and] at h
      exact (ih h).imp_left (congrArg Nat.succ)

theorem unaryDigest_injective : Function.Injective unaryDigest := by
  intro s
  induction s with
  | nil =>
    intro t h
    cases t with
    | nil => rfl
    | cons v t => simp [unaryDigest] at h
  | cons u s ih =>
    intro t h
    cases t with
    | nil => simp [unaryDigest] at h
    | cons v t =>
      simp only [unaryDigest, List.flatMap_cons, List.append_assoc, List.singleton_append,
        List.cons.injEq, true_and] at h
      obtain ⟨huv, hst⟩ := replicate_append_inj h
      have hdigest : unaryDigest s = unaryDigest t := congrArg (List.cons 0x30) hst
      rw [UInt16.toNat_inj.mp huv, ih hdigest]

theorem hexDigests {digests : List (JsString × JsString)} (h : digests.all fun e => e.2.all isHex) :
    ∀ e ∈ digests, ∀ u ∈ e.2, isHex u :=
  fun e he => List.all_eq_true.mp (List.all_eq_true.mp h e he)

def Platform.ofTables (digests : List (JsString × JsString)) (yaml : List (JsString × Value))
    (hdigests : ∀ e ∈ digests, ∀ u ∈ e.2, isHex u) : Platform where
  sha256 s := (digests.lookup s).getD (unaryDigest s)
  sha256_hex s := by
    cases h : digests.lookup s with
    | none => exact unaryDigest_hex s
    | some d => exact hdigests (s, d) (mem_of_lookup h)
  unicode := ascii
  parseYaml s := .ok ((yaml.lookup s).getD .null)
  localeCompare := compare

theorem ofTables_injective {digests : List (JsString × JsString)} {yaml : List (JsString × Value)}
    {hdigests : ∀ e ∈ digests, ∀ u ∈ e.2, isHex u} (hnodup : (digests.map (·.2)).Nodup)
    (hzero : ∀ e ∈ digests, e.2.head? ≠ some 0x30) :
    Function.Injective (Platform.ofTables digests yaml hdigests).sha256 := by
  have hne : ∀ s t d, digests.lookup s = some d → d ≠ unaryDigest t := by
    rintro s t _ hs rfl
    exact hzero _ (mem_of_lookup hs) rfl
  intro s t h
  simp only [Platform.ofTables] at h
  cases hs : digests.lookup s with
  | none =>
    cases ht : digests.lookup t with
    | none => exact unaryDigest_injective (by simpa [hs, ht] using h)
    | some d => exact absurd (by simpa [hs, ht] using h.symm) (hne t s d ht)
  | some d =>
    cases ht : digests.lookup t with
    | none => exact absurd (by simpa [hs, ht] using h) (hne s t d hs)
    | some d' =>
      obtain rfl : d = d' := by simpa [hs, ht] using h
      exact congrArg Prod.fst (List.inj_on_of_nodup_map hnodup (mem_of_lookup hs) (mem_of_lookup ht) rfl)

end HomelabApps.KnowledgeBase
