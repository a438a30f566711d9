import HomelabApps.KnowledgeBase.Markdown.Chunker

/-! The fenced code blocks of CommonMark, and the lines on which `FenceTracker` follows them. -/

namespace HomelabApps.KnowledgeBase.Markdown

open HomelabApps.Library.Utf16

/-- At most three spaces, a whole run of at least three backticks or tildes, and what follows it. -/
structure FenceRun (line : JsString) (fence : Fence) (rest : JsString) : Prop where
  indented : ∃ n ≤ 3, line = List.replicate n SPACE ++ (List.replicate fence.length fence.char ++ rest)
  char : fence.char = BACKTICK ∨ fence.char = TILDE
  length : 3 ≤ fence.length
  whole : rest.head? ≠ some fence.char

def Opens (line : JsString) (fence : Fence) : Prop :=
  ∃ info, FenceRun line fence info ∧ (fence.char = BACKTICK → BACKTICK ∉ info)

def Closes (line : JsString) (fence : Fence) : Prop :=
  ∃ length rest, FenceRun line ⟨fence.char, length⟩ rest ∧ fence.length ≤ length ∧ rest.all isBlank = true

/-- What CommonMark makes of a line: whether it belongs to a fenced block, and the block that goes on. -/
inductive CodeLine : Option Fence → JsString → Bool → Option Fence → Prop
  | opens : Opens line fence → CodeLine none line true (some fence)
  | text : (∀ fence, ¬ Opens line fence) → CodeLine none line false none
  | closes : Closes line fence → CodeLine (some fence) line true none
  | code : ¬ Closes line fence → CodeLine (some fence) line true (some fence)

/-- What CommonMark makes of the lines one after the other; an unclosed block runs to the end. -/
inductive CodeLines : Option Fence → List JsString → List Bool → Option Fence → Prop
  | nil : CodeLines block [] [] block
  | cons : CodeLine block line inside next → CodeLines next lines insides last →
      CodeLines block (line :: lines) (inside :: insides) last

def FenceTracker.classify : FenceTracker → List JsString → List Bool
  | _, [] => []
  | t, line :: lines => (t.consume line).2 :: FenceTracker.classify (t.consume line).1 lines

structure FollowsCommonMark (unicode : Unicode) (mode : ChunkingMode) (lines : List JsString) : Prop where
  classified : ∃ last, CodeLines none lines (FenceTracker.classify none lines) last
  noHeading : ∀ before line after insides block next, lines = before ++ line :: after →
    CodeLines none before insides block → CodeLine block line true next →
      ∃ fences, (before.foldl (Sectioning.consume unicode mode) {}).consume unicode mode line =
        { before.foldl (Sectioning.consume unicode mode) {} with fences := fences }.push line

def InlineCode (line : JsString) : Prop :=
  ∃ fence rest, FenceRun line fence rest ∧ fence.char = BACKTICK ∧ BACKTICK ∈ rest

def NoInlineCode (block : Option Fence) (lines : List JsString) : Prop :=
  ∀ before line after insides, lines = before ++ line :: after → CodeLines block before insides none →
    ¬ InlineCode line

variable {line rest : JsString} {fence : Fence} {lines before : List JsString} {block next last : Option Fence}
  {inside : Bool} {insides : List Bool}

theorem takeWhile_replicate {u : UInt16} {n : Nat} (h : rest.head? ≠ some u) :
    (List.replicate n u ++ rest).takeWhile (· = u) = List.replicate n u := by
  induction n with
  | zero =>
    cases rest with
    | nil => rfl
    | cons v rest =>
      have hne : v ≠ u := fun hv => h (congrArg some hv)
      simp [hne]
  | succ n ih => simp [List.replicate_succ, ih]

theorem dropWhile_replicate {u : UInt16} {n : Nat} (h : rest.head? ≠ some u) :
    (List.replicate n u ++ rest).dropWhile (· = u) = rest := by
  induction n with
  | zero =>
    cases rest with
    | nil => rfl
    | cons v rest =>
      have hne : v ≠ u := fun hv => h (congrArg some hv)
      simp [hne]
  | succ n ih => simp [List.replicate_succ, ih]

theorem takeWhile_eq_replicate (u : UInt16) (s : JsString) :
    s.takeWhile (· = u) = List.replicate (s.takeWhile (· = u)).length u :=
  List.eq_replicate_of_mem fun _ hv => by simpa using List.mem_takeWhile_imp hv

theorem unindent_eq_some {s : JsString} :
    unindent line = some s ↔ (line.takeWhile (· = SPACE)).length ≤ 3 ∧ line.dropWhile (· = SPACE) = s := by
  rw [unindent]
  split
  · next hindent => simp [hindent]
  · next hindent => simp [hindent]

theorem FenceRun.ne_space (h : FenceRun line fence rest) : fence.char ≠ SPACE := by
  rcases h.char with hchar | hchar
  · rw [hchar]
    decide
  · rw [hchar]
    decide

theorem fenceRun_of_run (h : FenceRun line fence rest) : fenceRun line = some (fence, rest) := by
  obtain ⟨n, hn, rfl⟩ := h.indented
  obtain ⟨char, length⟩ := fence
  obtain ⟨k, rfl⟩ : ∃ k, length = k + 1 := ⟨length - 1, by have := h.length; dsimp only at this; omega⟩
  have hhead : (List.replicate (k + 1) char ++ rest).head? ≠ some SPACE := by
    rw [List.replicate_succ]
    exact fun hspace => h.ne_space (Option.some.inj hspace)
  have hunindent : unindent (List.replicate n SPACE ++ (List.replicate (k + 1) char ++ rest)) =
      some (char :: (List.replicate k char ++ rest)) := by
    rw [unindent_eq_some, takeWhile_replicate hhead, dropWhile_replicate hhead, List.length_replicate,
      List.replicate_succ]
    exact ⟨hn, rfl⟩
  have hwhole : rest.head? ≠ some char := h.whole
  have hrun : (char :: (List.replicate k char ++ rest)).takeWhile (· = char) = List.replicate (k + 1) char := by
    have hwhole := takeWhile_replicate (n := k + 1) hwhole
    rw [List.replicate_succ] at hwhole
    exact hwhole
  have hrest : (char :: (List.replicate k char ++ rest)).dropWhile (· = char) = rest := by
    have hwhole := dropWhile_replicate (n := k + 1) hwhole
    rw [List.replicate_succ] at hwhole
    exact hwhole
  rw [fenceRun, hunindent]
  dsimp only
  rw [hrun, hrest, List.length_replicate, if_pos ⟨h.char, h.length⟩]

theorem run_of_fenceRun (h : fenceRun line = some (fence, rest)) : FenceRun line fence rest := by
  rw [fenceRun] at h
  split at h
  · next u s hunindent =>
    obtain ⟨hindent, hdrop⟩ := unindent_eq_some.mp hunindent
    dsimp only at h
    split at h
    · next hfence =>
      cases h
      refine ⟨⟨_, hindent, ?_⟩, hfence.1, hfence.2, ?_⟩
      · dsimp only
        rw [← takeWhile_eq_replicate, ← takeWhile_eq_replicate, List.takeWhile_append_dropWhile, ← hdrop,
          List.takeWhile_append_dropWhile]
      · intro hhead
        have hstop := List.head?_dropWhile_not (p := (· = u)) (l := u :: s)
        rw [hhead] at hstop
        simp at hstop
    · cases h
  · cases h

theorem fenceRun_iff : fenceRun line = some (fence, rest) ↔ FenceRun line fence rest :=
  ⟨run_of_fenceRun, fenceRun_of_run⟩

theorem opens_iff : Opens line fence ↔ fenceOpen line = some fence ∧ ¬ InlineCode line := by
  constructor
  · rintro ⟨info, hrun, hinfo⟩
    refine ⟨by rw [fenceOpen, fenceRun_iff.mpr hrun]; rfl, ?_⟩
    rintro ⟨other, rest, hother, hchar, hmem⟩
    obtain ⟨rfl, rfl⟩ := Prod.mk.inj (Option.some.inj ((fenceRun_iff.mpr hrun).symm.trans (fenceRun_iff.mpr hother)))
    exact hinfo hchar hmem
  · rintro ⟨hopen, hinline⟩
    obtain ⟨⟨found, info⟩, hrun, rfl⟩ := Option.map_eq_some_iff.mp hopen
    exact ⟨info, fenceRun_iff.mp hrun, fun hchar hmem => hinline ⟨found, info, fenceRun_iff.mp hrun, hchar, hmem⟩⟩

theorem closes_iff : Closes line fence ↔
    ∃ close, fenceClose line = some close ∧ close.char = fence.char ∧ fence.length ≤ close.length := by
  constructor
  · rintro ⟨length, rest, hrun, hlength, hblank⟩
    refine ⟨⟨fence.char, length⟩, ?_, rfl, hlength⟩
    rw [fenceClose, fenceRun_iff.mpr hrun]
    exact if_pos hblank
  · rintro ⟨⟨char, length⟩, hclose, hchar, hlength⟩
    rw [fenceClose] at hclose
    split at hclose
    · next found rest hrun =>
      obtain ⟨hblank, heq⟩ := Option.ite_none_right_eq_some.mp hclose
      obtain rfl := Option.some.inj heq
      dsimp only at hchar
      subst hchar
      exact ⟨length, rest, fenceRun_iff.mp hrun, hlength, hblank⟩
    · cases hclose

theorem consume_none (line : JsString) :
    FenceTracker.consume none line = (fenceOpen line, (fenceOpen line).isSome) := by
  rw [FenceTracker.consume]
  cases fenceOpen line <;> rfl

theorem CodeLine.unique {inside' : Bool} {next' : Option Fence} (h : CodeLine block line inside next)
    (h' : CodeLine block line inside' next') : inside = inside' ∧ next = next' := by
  cases h with
  | opens hopens =>
    cases h' with
    | opens hopens' =>
      have hfence := (opens_iff.mp hopens).1.symm.trans (opens_iff.mp hopens').1
      exact ⟨rfl, hfence⟩
    | text htext => exact absurd hopens (htext _)
  | text htext =>
    cases h' with
    | opens hopens => exact absurd hopens (htext _)
    | text _ => exact ⟨rfl, rfl⟩
  | closes hcloses =>
    cases h' with
    | closes _ => exact ⟨rfl, rfl⟩
    | code hcode => exact absurd hcloses hcode
  | code hcode =>
    cases h' with
    | closes hcloses => exact absurd hcloses hcode
    | code _ => exact ⟨rfl, rfl⟩

theorem codeLine_consume (h : block = none → ¬ InlineCode line) :
    CodeLine block line (FenceTracker.consume block line).2 (FenceTracker.consume block line).1 := by
  cases block with
  | none =>
    rw [consume_none]
    cases hopen : fenceOpen line with
    | none =>
      refine .text fun fence hopens => ?_
      rw [(opens_iff.mp hopens).1] at hopen
      cases hopen
    | some fence => exact .opens (opens_iff.mpr ⟨hopen, h rfl⟩)
  | some fence =>
    by_cases hcloses : Closes line fence
    · obtain ⟨close, hclose, hends⟩ := closes_iff.mp hcloses
      rw [FenceTracker.consume, hclose]
      dsimp only
      rw [if_pos hends]
      exact .closes hcloses
    · have hkept : FenceTracker.consume (some fence) line = (some fence, true) := by
        rw [FenceTracker.consume]
        split
        · next close hclose =>
          exact if_neg fun hends => hcloses (closes_iff.mpr ⟨close, hclose, hends⟩)
        · rfl
      rw [hkept]
      exact .code hcloses

theorem consume_inlineCode (h : InlineCode line) (next : Option Fence) :
    ¬ CodeLine none line (FenceTracker.consume none line).2 next := by
  obtain ⟨fence, rest, hrun, hchar, hmem⟩ := h
  rw [consume_none, fenceOpen, fenceRun_iff.mpr hrun]
  intro hline
  cases hline with
  | opens hopens => exact (opens_iff.mp hopens).2 ⟨fence, rest, hrun, hchar, hmem⟩

theorem noInlineCode_cons (hline : CodeLine block line inside next) :
    NoInlineCode block (line :: lines) ↔ (block = none → ¬ InlineCode line) ∧ NoInlineCode next lines := by
  constructor
  · intro h
    refine ⟨?_, fun before l after insides hlines hbefore => ?_⟩
    · rintro rfl
      exact h [] line lines [] rfl .nil
    · exact h (line :: before) l after (inside :: insides) (by rw [hlines]; rfl) (.cons hline hbefore)
  · rintro ⟨hfirst, hrest⟩ before l after insides hlines hbefore
    cases hbefore with
    | nil =>
      obtain ⟨rfl, -⟩ := List.cons.inj hlines
      exact hfirst rfl
    | cons hhead htail =>
      obtain ⟨rfl, hrests⟩ := List.cons.inj hlines
      obtain ⟨rfl, rfl⟩ := hline.unique hhead
      exact hrest _ l after _ hrests htail

theorem classified_iff :
    (∃ last, CodeLines block lines (FenceTracker.classify block lines) last) ↔ NoInlineCode block lines := by
  induction lines generalizing block with
  | nil =>
    refine ⟨fun _ before line after insides hlines => ?_, fun _ => ⟨block, .nil⟩⟩
    exact absurd hlines.symm (List.append_ne_nil_of_right_ne_nil before (List.cons_ne_nil line after))
  | cons line lines ih =>
    rw [FenceTracker.classify]
    by_cases hclean : block = none → ¬ InlineCode line
    · have hline := codeLine_consume hclean
      rw [noInlineCode_cons hline, ← ih]
      constructor
      · rintro ⟨last, hlines⟩
        cases hlines with
        | cons hhead htail =>
          obtain ⟨-, rfl⟩ := hline.unique hhead
          exact ⟨hclean, last, htail⟩
      · rintro ⟨-, last, hlines⟩
        exact ⟨last, .cons hline hlines⟩
    · obtain ⟨rfl, hinline⟩ := Classical.not_imp.mp hclean
      rw [Classical.not_not] at hinline
      constructor
      · rintro ⟨last, hlines⟩
        cases hlines with
        | cons hhead _ => exact absurd hhead (consume_inlineCode hinline _)
      · intro h
        exact absurd hinline (h [] line lines [] rfl .nil)

variable {unicode : Unicode} {mode : ChunkingMode} {s : Sectioning}

theorem fences_heading (unicode : Unicode) (mode : ChunkingMode) (s : Sectioning) (line : JsString) (level : Nat)
    (text : JsString) : (s.heading unicode mode line level text).fences = s.fences := by
  unfold Sectioning.heading
  dsimp only
  split_ifs <;> rfl

theorem fences_consume (unicode : Unicode) (mode : ChunkingMode) (s : Sectioning) (line : JsString) :
    (s.consume unicode mode line).fences = (FenceTracker.consume s.fences line).1 := by
  unfold Sectioning.consume
  split
  · next hconsume =>
    rw [hconsume]
    rfl
  · next hconsume =>
    rw [hconsume]
    split
    · rfl
    · exact fences_heading unicode mode _ line _ _

theorem fences_foldl (h : NoInlineCode s.fences before) (hbefore : CodeLines s.fences before insides block) :
    (before.foldl (Sectioning.consume unicode mode) s).fences = block := by
  induction before generalizing s insides with
  | nil =>
    cases hbefore
    rfl
  | cons line before ih =>
    cases hbefore with
    | cons hline hlines =>
      have hclean : s.fences = none → ¬ InlineCode line := ((noInlineCode_cons hline).mp h).1
      obtain ⟨-, hnext⟩ := hline.unique (codeLine_consume hclean)
      subst hnext
      rw [← fences_consume unicode mode] at hlines
      refine ih ?_ hlines
      rw [fences_consume]
      exact ((noInlineCode_cons hline).mp h).2

theorem followsCommonMark_iff (unicode : Unicode) (mode : ChunkingMode) (lines : List JsString) :
    FollowsCommonMark unicode mode lines ↔ NoInlineCode none lines := by
  constructor
  · intro h
    exact classified_iff.mp h.classified
  · intro h
    refine ⟨classified_iff.mpr h, ?_⟩
    rintro before line after insides block next rfl hbefore hline
    have hfirst : NoInlineCode none before := by
      intro first other rest insides heq hfirst
      exact h first other (rest ++ line :: after) insides (by rw [heq]; simp) hfirst
    have hfences : (before.foldl (Sectioning.consume unicode mode) {}).fences = block :=
      fences_foldl hfirst hbefore
    have hclean : block = none → ¬ InlineCode line := by
      rintro rfl
      exact h before line after insides rfl hbefore
    have htrue : (FenceTracker.consume block line).2 = true := ((codeLine_consume hclean).unique hline).1
    generalize before.foldl (Sectioning.consume unicode mode) {} = s at hfences
    refine ⟨(FenceTracker.consume block line).1, ?_⟩
    rw [Sectioning.consume, hfences]
    rw [show FenceTracker.consume block line = ((FenceTracker.consume block line).1, true) from Prod.ext rfl htrue]

def inlineCodeLine : JsString := utf16 "```npm i``` installs it"

theorem followsCommonMark_inlineCode : ¬ ∀ (unicode : Unicode) (mode : ChunkingMode),
    FollowsCommonMark unicode mode [inlineCodeLine, utf16 "# Usage"] := by
  intro h
  have hrun : FenceRun inlineCodeLine ⟨BACKTICK, 3⟩ (inlineCodeLine.drop 3) := fenceRun_iff.mp (by decide)
  have hclean := classified_iff.mp (h ⟨id, fun _ h => h, fun _ => true⟩ .sections).classified
  exact hclean [] inlineCodeLine [utf16 "# Usage"] [] rfl .nil ⟨_, _, hrun, rfl, by decide⟩

end HomelabApps.KnowledgeBase.Markdown
