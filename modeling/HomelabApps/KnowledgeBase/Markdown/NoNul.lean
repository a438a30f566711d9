import HomelabApps.KnowledgeBase.Markdown.Chunker

namespace HomelabApps.KnowledgeBase.Markdown

open HomelabApps.Library.Utf16

variable {s t line : JsString} {parts lines : List JsString} {u : UInt16} {level : Nat}

def NoNul (texts : List JsString) : Prop := ∀ t ∈ texts, NUL ∉ t

theorem noNul_nil : NoNul [] := fun _ ht => absurd ht List.not_mem_nil

theorem noNul_singleton (h : NUL ∉ t) : NoNul [t] := fun _ ht => List.mem_singleton.mp ht ▸ h

theorem nul_joinLines (h : NoNul lines) : NUL ∉ joinLines lines :=
  notMem_intercalate (by decide) h

theorem mem_consFirst (h : line ∈ consFirst u lines) :
    ∃ l, (l ∈ lines ∨ l = []) ∧ (line = u :: l ∨ line = l) := by
  cases lines with
  | nil => exact ⟨[], .inr rfl, .inl (List.mem_singleton.mp h)⟩
  | cons l lines =>
    rcases List.mem_cons.mp h with h | h
    · exact ⟨l, .inl List.mem_cons_self, .inl h⟩
    · exact ⟨line, .inl (List.mem_cons_of_mem _ h), .inr rfl⟩

theorem nul_splitLines (h : NUL ∉ s) (hline : line ∈ splitLines s) : NUL ∉ line := by
  induction s using splitLines.induct generalizing line with
  | case1 => simp_all [splitLines]
  | case2 => simp_all [splitLines]
  | case3 u hu => simp_all [splitLines]
  | case4 u v s huv ih =>
    simp only [splitLines, huv, and_self, if_true, List.mem_cons, not_or] at h hline
    rcases hline with rfl | hline
    · exact List.not_mem_nil
    · exact ih h.2.2 hline
  | case5 v s huv ih =>
    rw [splitLines, if_neg huv, if_pos rfl, List.mem_cons] at hline
    rcases hline with rfl | hline
    · exact List.not_mem_nil
    · exact ih (fun hmem => h (List.mem_cons_of_mem _ hmem)) hline
  | case6 u v s huv hu ih =>
    rw [splitLines, if_neg huv, if_neg hu] at hline
    rw [List.mem_cons, not_or] at h
    obtain ⟨l, hl, hline⟩ := mem_consFirst hline
    have hnul : NUL ∉ l := by
      rcases hl with hl | rfl
      · exact ih h.2 hl
      · exact List.not_mem_nil
    rcases hline with rfl | rfl
    · simp [h.1, hnul]
    · exact hnul

theorem headingText_subset : headingText s ⊆ s := by
  induction s with
  | nil => exact List.Subset.refl _
  | cons u s ih =>
    rw [headingText]
    split
    · exact List.nil_subset _
    · exact List.cons_subset_cons u ih

theorem trim_subset : trim s ⊆ s := fun _ hu =>
  List.dropWhile_subset _ ((List.rdropWhile_prefix _ _).subset hu)

theorem nul_link? {length : Nat} (h : NUL ∉ s) (hlink : link? s = some (t, length)) : NUL ∉ t := by
  unfold link? at hlink
  simp only at hlink
  split at hlink
  · rename_i label hlabel
    split at hlink
    · split at hlink
      · cases hlink
        intro hmem
        have hlabelMem : NUL ∈ label := List.takeWhile_subset _ hmem
        exact h (List.drop_subset _ s (hlabel ▸ List.mem_cons_of_mem _ hlabelMem))
      · cases hlink
    · cases hlink
  · cases hlink

theorem nul_replaceLinks {skip : Nat} (h : NUL ∉ s) : NUL ∉ replaceLinks skip s := by
  induction s generalizing skip with
  | nil => simp [replaceLinks]
  | cons u s ih =>
    have hs : NUL ∉ s := fun hmem => h (List.mem_cons_of_mem _ hmem)
    cases skip with
    | succ k => exact ih hs
    | zero =>
      rw [replaceLinks]
      split
      · rename_i text length hlink
        rw [List.mem_append, not_or]
        exact ⟨nul_link? h hlink, ih hs⟩
      · rw [List.mem_cons, not_or]
        exact ⟨fun hu => h (hu ▸ List.mem_cons_self), ih hs⟩

theorem heading?_subset (h : heading? line = some (level, t)) : t ⊆ line := by
  unfold heading? at h
  split at h
  · cases h
  · rename_i s hs
    have hsub : s ⊆ line := by
      unfold unindent at hs
      split at hs
      · cases hs
        exact List.dropWhile_subset _
      · cases hs
    simp only at h
    split at h
    · split at h
      · cases h
        exact List.nil_subset _
      · split at h
        · rename_i hrest _
          cases h
          refine List.Subset.trans headingText_subset (List.Subset.trans (List.dropWhile_subset _) ?_)
          exact List.Subset.trans (List.dropWhile_subset _) hsub
        · cases h
    · cases h

theorem nul_headingOf (h : NUL ∉ line) (hheading : headingOf line = some (level, t)) : NUL ∉ t := by
  unfold headingOf at hheading
  split at hheading
  · rename_i level' text htext
    split at hheading
    · cases hheading
      exact fun hmem => nul_replaceLinks (fun hmem => h (heading?_subset htext hmem)) (trim_subset hmem)
    · cases hheading
  · cases hheading

theorem nul_titleFrom {fences : FenceTracker} (h : ∀ l ∈ lines, NUL ∉ l)
    (htitle : titleFrom fences lines = some t) : NUL ∉ t := by
  induction lines generalizing fences with
  | nil => cases htitle
  | cons line lines ih =>
    have hlines : ∀ l ∈ lines, NUL ∉ l := fun l hl => h l (List.mem_cons_of_mem _ hl)
    rw [titleFrom] at htitle
    split at htitle
    · exact ih hlines htitle
    · split at htitle
      · rename_i text htext
        cases htitle
        exact nul_headingOf (h line List.mem_cons_self) htext
      · exact ih hlines htitle

theorem nul_extractTitle (h : NUL ∉ s) (htitle : extractTitle s = some t) : NUL ∉ t :=
  nul_titleFrom (fun _ hl => nul_splitLines h hl) htitle

theorem filterPoints_subset {p : Nat → Bool} : filterPoints p s ⊆ s := by
  induction s using filterPoints.induct (p := p) with
  | case1 => exact List.Subset.refl _
  | case2 u hp => simp [filterPoints, hp]
  | case3 u hp => simp [filterPoints, hp]
  | case4 u v rest huv hp ih =>
    rw [filterPoints, if_pos huv, if_pos hp]
    exact List.cons_subset_cons u (List.cons_subset_cons v ih)
  | case5 u v rest huv hp ih =>
    rw [filterPoints, if_pos huv, if_neg hp]
    exact fun w hw => List.mem_cons_of_mem _ (List.mem_cons_of_mem _ (ih hw))
  | case6 u v rest huv hp ih =>
    rw [filterPoints, if_neg huv, if_pos hp]
    exact List.cons_subset_cons u ih
  | case7 u v rest huv hp ih =>
    rw [filterPoints, if_neg huv, if_neg hp]
    exact fun w hw => List.mem_cons_of_mem _ (ih hw)

variable {unicode : Unicode} {text original result : JsString} {o : Occurrences}

theorem nul_slugify (h : NUL ∉ text) : NUL ∉ slugify unicode text := by
  intro hmem
  obtain ⟨u, hu, heq⟩ := List.mem_map.mp hmem
  split at heq
  · exact absurd heq (by decide)
  · subst heq
    exact h (unicode.nul_toLowerCase _ (filterPoints_subset hu))

theorem nul_numbered {n : Nat} (h : NUL ∉ original) : NUL ∉ numbered original n := by
  have hdigit : ∀ c ∈ (toString n).toList, c.toNat < 0x80 ∧ c.toNat ≠ 0 := by
    intro c hc
    have hisDigit := Nat.isDigit_of_mem_toDigits (by omega) (by omega) (Nat.toList_repr ▸ hc)
    simp only [Char.isDigit, Bool.and_eq_true, decide_eq_true_eq] at hisDigit
    have h1 : 48 ≤ c.toNat := hisDigit.1
    have h2 : c.toNat ≤ 57 := hisDigit.2
    omega
  rw [numbered, List.mem_append, List.mem_cons]
  rintro (hmem | hmem | hmem)
  · exact h hmem
  · exact absurd hmem (by decide)
  · obtain ⟨c, hc, heq⟩ := mem_utf16 (fun c hc => (hdigit c hc).1) hmem
    exact (hdigit c hc).2 heq.symm

theorem nul_freeSlug {fuel : Nat} (h : NUL ∉ original) (hresult : NUL ∉ result) :
    NUL ∉ (freeSlug original fuel result o).1 := by
  induction fuel generalizing result o with
  | zero => exact hresult
  | succ fuel ih =>
    rw [freeSlug]
    split
    · exact ih (nul_numbered h)
    · exact hresult

theorem nul_slug (h : NUL ∉ text) : NUL ∉ (slug unicode o text).1 := by
  unfold slug
  exact nul_freeSlug (nul_slugify h) (nul_slugify h)

structure Section.NoNul (s : Section) : Prop where
  path : ∀ text ∈ s.path, NUL ∉ text
  slug : ∀ slug ∈ s.slug, NUL ∉ slug
  lines : ∀ line ∈ s.lines, NUL ∉ line

structure Sectioning.NoNul (s : Sectioning) : Prop where
  done : ∀ section' ∈ s.done, section'.NoNul
  current : s.current.NoNul
  h2 : ∀ text ∈ s.h2, NUL ∉ text

variable {sectioning : Sectioning} {mode : ChunkingMode} {path : List JsString} {name : JsString}

theorem Sectioning.NoNul.push (h : sectioning.NoNul) (hline : NUL ∉ line) : (sectioning.push line).NoNul where
  done := h.done
  current :=
    { path := h.current.path
      slug := h.current.slug
      lines := fun l hl => by
        rcases List.mem_append.mp hl with hl | hl
        · exact h.current.lines l hl
        · rwa [List.mem_singleton.mp hl] }
  h2 := h.h2

theorem Sectioning.NoNul.begin (h : sectioning.NoNul) (hpath : ∀ text ∈ path, NUL ∉ text) (hname : NUL ∉ name) :
    (sectioning.begin path name).NoNul where
  done := fun s hs => by
    rcases List.mem_append.mp hs with hs | hs
    · exact h.done s hs
    · rw [List.mem_singleton.mp hs]
      exact h.current
  current :=
    { path := hpath
      slug := fun slug hslug => by rwa [← Option.some.inj hslug]
      lines := fun l hl => by cases hl }
  h2 := h.h2

theorem Sectioning.NoNul.heading (h : sectioning.NoNul) (hline : NUL ∉ line) (htext : NUL ∉ text) :
    (sectioning.heading unicode mode line level text).NoNul := by
  have hname : NUL ∉ (Markdown.slug unicode sectioning.slugger text).1 := nul_slug htext
  have hslugger : ∀ slugger, { sectioning with slugger := slugger }.NoNul := fun _ => ⟨h.done, h.current, h.h2⟩
  unfold Sectioning.heading
  simp only
  split
  · exact ⟨h.done, h.current, h.h2⟩
  · split
    · have hbegin := (hslugger (Markdown.slug unicode sectioning.slugger text).2).begin
        (noNul_singleton htext) hname
      exact ⟨hbegin.done, hbegin.current, fun t ht => by rwa [← Option.some.inj ht]⟩
    · split
      · refine (hslugger _).begin (fun t ht => ?_) hname
        rcases List.mem_append.mp ht with ht | ht
        · exact h.h2 t (Option.mem_toList.mp ht)
        · rwa [List.mem_singleton.mp ht]
      · exact (hslugger _).push hline

theorem Sectioning.NoNul.consume (h : sectioning.NoNul) (hline : NUL ∉ line) :
    (sectioning.consume unicode mode line).NoNul := by
  have hfences : ∀ fences, { sectioning with fences := fences }.NoNul := fun _ => ⟨h.done, h.current, h.h2⟩
  unfold Sectioning.consume
  split
  · exact (hfences _).push hline
  · split
    · exact (hfences _).push hline
    · rename_i htext
      exact (hfences _).heading hline (nul_headingOf hline htext)

theorem Sectioning.noNul_empty : ({} : Sectioning).NoNul where
  done _ hs := by cases hs
  current :=
    { path := fun _ ht => by cases ht
      slug := fun _ ht => by cases ht
      lines := fun _ hl => by cases hl }
  h2 _ ht := by cases ht

theorem nul_sections (h : NUL ∉ text) : ∀ s ∈ sections unicode text mode, s.NoNul := by
  have hall : ((splitLines text).foldl (Sectioning.consume unicode mode) {}).NoNul :=
    List.foldlRecOn (motive := Sectioning.NoNul) _ _ Sectioning.noNul_empty fun _ hs _ hl =>
      hs.consume (nul_splitLines h hl)
  intro s hs
  rcases List.mem_append.mp hs with hs | hs
  · exact hall.done s hs
  · rw [List.mem_singleton.mp hs]
    exact hall.current

variable {texts texts' : List JsString} {maxChars overlapChars budget : Nat} {header : JsString}

theorem NoNul.append (h : NoNul texts) (h' : NoNul texts') : NoNul (texts ++ texts') := fun t ht =>
  (List.mem_append.mp ht).elim (h t) (h' t)

theorem NoNul.tail (h : NoNul texts) : NoNul (tail texts budget) := by
  have hfrom : ∀ texts kept, NoNul texts → NoNul kept → NoNul (tailFrom budget texts kept) := by
    intro texts
    induction texts with
    | nil => exact fun _ _ hkept => hkept
    | cons paragraph texts ih =>
      intro kept htexts hkept
      rw [tailFrom]
      split
      · exact hkept
      · exact ih _ (fun t ht => htexts t (List.mem_cons_of_mem _ ht))
          ((noNul_singleton (htexts paragraph List.mem_cons_self)).append hkept)
  exact hfrom _ _ (fun t ht => h t (List.mem_reverse.mp ht)) noNul_nil

theorem nul_joinParagraphs (h : NoNul texts) : NUL ∉ joinParagraphs texts :=
  notMem_intercalate (by decide) h

theorem nul_splitOn (h : NUL ∉ text) : NoNul (text.splitOn u) := fun _ ht hmem =>
  h (mem_of_mem_splitOn ht hmem)

theorem nul_slices {fuel : Nat} (h : NUL ∉ text) : NoNul (slices maxChars fuel text) := by
  induction fuel generalizing text with
  | zero => exact noNul_nil
  | succ fuel ih =>
    rw [slices]
    split
    · exact noNul_singleton h
    · intro t ht
      rcases List.mem_cons.mp ht with rfl | ht
      · exact fun hmem => h (List.take_subset _ _ hmem)
      · exact ih (fun hmem => h (List.drop_subset _ _ hmem)) t ht

structure Pieces.NoNul (s : Pieces) : Prop where
  pieces : Markdown.NoNul s.pieces
  buffer : NUL ∉ s.buffer

theorem Pieces.NoNul.add {s : Pieces} (h : s.NoNul) (ht : NUL ∉ t) : (s.add t).NoNul where
  pieces := h.pieces
  buffer := by
    unfold Pieces.add
    simp only
    split
    · exact ht
    · simp only [List.mem_append, List.mem_cons, not_or]
      exact ⟨h.buffer, by decide, ht⟩

theorem Pieces.NoNul.consume {s : Pieces} (h : s.NoNul) (hheader : NUL ∉ header) (ht : NUL ∉ t) :
    (s.consume maxChars header t).NoNul := by
  unfold Pieces.consume
  split
  · refine Pieces.NoNul.add ?_ ht
    exact ⟨h.pieces.append (noNul_singleton h.buffer), hheader⟩
  · exact h.add ht

theorem nul_hardSplit (h : NUL ∉ text) : NoNul (hardSplit text maxChars) := by
  have hlines : NoNul (text.splitOn LF) := nul_splitOn h
  have hheader : NoNul (tableHeader (text.splitOn LF) maxChars) := by
    unfold tableHeader
    split
    · rename_i header separator _ heq
      split
      · intro t ht
        refine hlines t ?_
        rw [heq]
        simp only [List.mem_cons, List.not_mem_nil, or_false] at ht ⊢
        tauto
      · exact noNul_nil
    · exact noNul_nil
  unfold hardSplit
  simp only
  generalize tableHeader (text.splitOn LF) maxChars = header at hheader
  have hrows : NoNul (((text.splitOn LF).drop header.length).flatMap
      fun line => slices maxChars (line.length + 1) line) := by
    intro t ht
    obtain ⟨line, hline, ht⟩ := List.mem_flatMap.mp ht
    exact nul_slices (hlines line (List.drop_subset _ _ hline)) t ht
  have hpieces := List.foldlRecOn (motive := Pieces.NoNul)
    (((text.splitOn LF).drop header.length).flatMap fun line => slices maxChars (line.length + 1) line)
    (Pieces.consume maxChars (joinLines header)) (b := { buffer := joinLines header })
    ⟨noNul_nil, nul_joinLines hheader⟩
    fun _ hs row hrow => hs.consume (nul_joinLines hheader) (hrows row hrow)
  split
  · exact hpieces.pieces.append (noNul_singleton hpieces.buffer)
  · exact hpieces.pieces

structure Paragraphs.NoNul (s : Paragraphs) : Prop where
  paragraphs : Markdown.NoNul s.paragraphs
  buffer : Markdown.NoNul s.buffer

theorem Paragraphs.NoNul.flush {s : Paragraphs} (h : s.NoNul) : s.flush.NoNul := by
  unfold Paragraphs.flush
  split
  · exact h
  · exact ⟨h.paragraphs.append (noNul_singleton (nul_joinLines h.buffer)), noNul_nil⟩

theorem Paragraphs.NoNul.consume {s : Paragraphs} (h : s.NoNul) (ht : NUL ∉ t) : (s.consume t).NoNul := by
  unfold Paragraphs.consume
  split
  · exact h.flush
  · exact ⟨h.paragraphs, h.buffer.append (noNul_singleton ht)⟩

theorem nul_paragraphs (h : NUL ∉ text) : NoNul (paragraphs text) := by
  have hall := List.foldlRecOn (motive := Paragraphs.NoNul) (text.splitOn LF) Paragraphs.consume (b := {})
    ⟨noNul_nil, noNul_nil⟩ fun _ hs line hl => hs.consume (nul_splitOn h line hl)
  exact hall.flush.paragraphs

structure Parts.NoNul (s : Parts) : Prop where
  parts : Markdown.NoNul s.parts
  current : Markdown.NoNul s.current

theorem Parts.NoNul.consume {s : Parts} (h : s.NoNul) (ht : NUL ∉ t) :
    (s.consume maxChars overlapChars t).NoNul := by
  unfold Parts.consume
  split
  · refine ⟨h.parts.append (noNul_singleton (nul_joinParagraphs h.current)), ?_⟩
    refine Markdown.NoNul.append ?_ (noNul_singleton ht)
    split
    · exact noNul_nil
    · exact h.current.tail
  · exact ⟨h.parts, h.current.append (noNul_singleton ht)⟩

theorem nul_split (h : NUL ∉ text) : NoNul (split text maxChars overlapChars) := by
  unfold split
  split
  · exact noNul_singleton h
  · have hpieces : NoNul ((paragraphs text).flatMap fun paragraph =>
        if maxChars < paragraph.length then hardSplit paragraph maxChars else [paragraph]) := by
      intro t ht
      obtain ⟨paragraph, hparagraph, ht⟩ := List.mem_flatMap.mp ht
      have hnul := nul_paragraphs h paragraph hparagraph
      split at ht
      · exact nul_hardSplit hnul t ht
      · exact noNul_singleton hnul t ht
    have hparts := List.foldlRecOn (motive := Parts.NoNul) _ (Parts.consume maxChars overlapChars)
      (b := {}) ⟨noNul_nil, noNul_nil⟩ fun _ hs piece hp =>
        hs.consume (hpieces piece hp)
    simp only
    split
    · exact hparts.parts
    · exact hparts.parts.append (noNul_singleton (nul_joinParagraphs hparts.current))

theorem nul_dropBlankLines {kept : JsString} (hkept : NUL ∉ kept) (h : NUL ∉ text) :
    NUL ∉ dropBlankLines kept text := by
  induction text generalizing kept with
  | nil => exact hkept
  | cons u text ih =>
    have htext : NUL ∉ text := fun hmem => h (List.mem_cons_of_mem _ hmem)
    rw [dropBlankLines]
    split
    · exact ih htext htext
    · split
      · exact ih hkept htext
      · exact hkept

variable {sha256 : JsString → JsString} {options : MarkdownChunkOptions} {c : MarkdownChunk} {s : Section}

theorem Section.NoNul.body (h : s.NoNul) : NUL ∉ s.body := by
  have hlines := nul_joinLines h.lines
  exact fun hmem => nul_dropBlankLines hlines hlines ((List.rdropWhile_prefix _ _).subset hmem)

theorem nul_chunk (htext : NUL ∉ text) (hid : NUL ∉ options.externalId)
    (hc : c ∈ chunk sha256 unicode text options) : NUL ∉ c.heading ∧ NUL ∉ c.anchor ∧ NUL ∉ c.body := by
  obtain ⟨i, hi, rfl⟩ := List.mem_mapIdx.mp hc
  have hmem := List.getElem_mem hi
  obtain ⟨s, hs, hpart⟩ := List.mem_flatMap.mp hmem
  obtain ⟨part, hpart, heq⟩ := List.mem_map.mp hpart
  have hnul := nul_sections htext s hs
  rw [← heq]
  refine ⟨notMem_intercalate (by decide) hnul.path, ?_, ?_⟩
  · simp only [Section.anchor]
    split
    · exact hid
    · rename_i slug hslug
      simp only [List.mem_append, List.mem_cons, not_or]
      exact ⟨hid, by decide, hnul.slug slug hslug⟩
  · unfold Section.parts at hpart
    split at hpart
    · split at hpart
      · exact List.mem_singleton.mp hpart ▸ hnul.body
      · exact nul_split hnul.body part hpart
    · cases hpart

end HomelabApps.KnowledgeBase.Markdown
