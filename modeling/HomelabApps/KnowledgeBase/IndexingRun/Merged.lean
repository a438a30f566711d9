import HomelabApps.KnowledgeBase.IndexingRun

universe u

namespace HomelabApps.KnowledgeBase.IndexingRun

open HomelabApps.Library.Transition
open HomelabApps.Library.Utf16
open IndexingLoop (RunRequest merge)

variable {Vector : Type u} {c : Config}

def queuedBehind (pending : Option RunRequest) (requests : List RunRequest) : Option RunRequest :=
  requests.foldl (fun pending request => some (merge pending request)) pending

/-- The run asks the source for everything, without reading the cursor of the knowledge base. -/
def Rebuilds (s t : RunState Vector) (kb : KnowledgeBaseConfig) : Prop :=
  (∃ rest, s.stage = .recordRunStart kb rest) ∧ ∃ rest, t.stage = .changes kb rest

/-- The run takes the knowledge base up without asking whether it was ever indexed. -/
def Builds (s t : RunState Vector) (kb : KnowledgeBaseConfig) : Prop :=
  (∃ rest, t.stage = .recordRunStart kb rest) ∧ ∀ rest, s.stage ≠ .getCursor kb rest

def Precise (Vector : Type u) (requests : List RunRequest) : Prop :=
  ∀ (c : Config) (q : RunRequest) (events : List (Event Vector)) (answer : Answer Vector)
    (s t : RunState Vector) (kb : KnowledgeBaseConfig), queuedBehind none requests = some q →
      run (RunState.step c) (.start q) events = some s → s.step c (.answer answer) = some t →
        (Rebuilds s t kb → ∃ r ∈ requests, kb.id ∈ r.knowledgeBases ∧ r.full = true) ∧
          (Builds s t kb → ∃ r ∈ requests, kb.id ∈ r.knowledgeBases ∧ r.manual = true)

def Uniform (requests : List RunRequest) : Prop :=
  ∀ flag ∈ [RunRequest.full, RunRequest.manual], (∃ r ∈ requests, flag r = true) →
    ∀ r ∈ requests, ∀ kb ∈ r.knowledgeBases, ∃ r' ∈ requests, flag r' = true ∧ kb ∈ r'.knowledgeBases

def Stage.knowledgeBases : Stage → List KnowledgeBaseConfig
  | .asking => []
  | .getCursor kb rest => kb :: rest
  | .recordRunStart kb rest => kb :: rest
  | .readCursor kb rest => kb :: rest
  | .changes kb rest => kb :: rest
  | .upsert kb rest _ _ => kb :: rest
  | .copyByHash kb rest _ _ => kb :: rest
  | .delete kb rest _ => kb :: rest
  | .setCursor kb rest => kb :: rest
  | .countPending kb rest _ _ => kb :: rest
  | .pending kb rest _ _ => kb :: rest
  | .embed kb rest _ _ _ => kb :: rest
  | .insert kb rest _ _ => kb :: rest
  | .recordRunEnd kb rest _ => kb :: rest
  | .unlock => []
  | .ended => []

structure Onward (s t : RunState Vector) (kbs : List KnowledgeBaseConfig) : Prop where
  request : t.request = s.request
  within : t.stage.knowledgeBases ⊆ kbs
  manual : ∀ kb rest, t.stage = .recordRunStart kb rest → s.request.manual = true

variable {s t : RunState Vector} {kbs rest : List KnowledgeBaseConfig} {kb : KnowledgeBaseConfig}
  {stage : Stage} {call : Call Vector} {changes : SourceChanges} {answer : Answer Vector}

theorem Onward.mono (h : Onward s t kbs) {kbs' : List KnowledgeBaseConfig} (hsub : kbs ⊆ kbs') :
    Onward s t kbs' :=
  ⟨h.request, fun _ hkb => hsub (h.within hkb), h.manual⟩

theorem onward_begin (hkbs : stage.knowledgeBases ⊆ kbs)
    (hmanual : ∀ kb rest, stage = .recordRunStart kb rest → s.request.manual = true) :
    Onward s (s.begin call stage) kbs :=
  ⟨rfl, hkbs, hmanual⟩

theorem onward_finish : Onward s s.finish kbs := by
  unfold RunState.finish
  split
  · exact ⟨rfl, List.nil_subset _, by rintro _ _ ⟨⟩⟩
  · exact onward_begin (List.nil_subset _) (by rintro _ _ ⟨⟩)

theorem onward_nextKnowledgeBase (kbs : List KnowledgeBaseConfig) :
    Onward s (s.nextKnowledgeBase kbs) kbs := by
  cases kbs with
  | nil => exact onward_finish
  | cons kb rest =>
    rw [RunState.nextKnowledgeBase]
    split
    · exact onward_finish
    · split
      · rename_i hmanual
        exact onward_begin (List.Subset.refl _) fun _ _ _ => hmanual
      · exact onward_begin (List.Subset.refl _) (by rintro _ _ ⟨⟩)

theorem onward_caught (error : String) : Onward s (s.caught kb rest error) (kb :: rest) := by
  unfold RunState.caught
  split
  · exact onward_begin (List.Subset.refl _) (by rintro _ _ ⟨⟩)
  · exact onward_begin (List.Subset.refl _) (by rintro _ _ ⟨⟩)

theorem onward_unlessAborted {next : RunState Vector} (h : Onward s next (kb :: rest)) :
    Onward s (s.unlessAborted kb rest next) (kb :: rest) := by
  unfold RunState.unlessAborted
  split
  · exact onward_caught _
  · exact h

theorem onward_deletion : Onward s (s.deletion kb rest changes) (kb :: rest) := by
  refine onward_unlessAborted ?_
  split
  · exact onward_begin (List.Subset.refl _) (by rintro _ _ ⟨⟩)
  · exact onward_begin (List.Subset.refl _) (by rintro _ _ ⟨⟩)

theorem onward_nextCopy (models : List String) :
    Onward s (s.nextCopy kb rest changes models) (kb :: rest) := by
  cases models with
  | nil => exact onward_deletion
  | cons model models => exact onward_begin (List.Subset.refl _) (by rintro _ _ ⟨⟩)

theorem onward_nextDocument (documents : List SourceDocument) :
    Onward s (s.nextDocument kb rest changes documents) (kb :: rest) := by
  induction documents with
  | nil => exact onward_nextCopy _
  | cons document documents ih =>
    unfold RunState.nextDocument
    refine onward_unlessAborted ?_
    split
    · exact onward_caught _
    · exact ih
    · exact onward_begin (List.Subset.refl _) (by rintro _ _ ⟨⟩)

theorem onward_nextBatch (model : String) (models : List String) :
    Onward s (s.nextBatch c kb rest model models) (kb :: rest) :=
  onward_unlessAborted (onward_begin (List.Subset.refl _) (by rintro _ _ ⟨⟩))

theorem onward_nextModel (models : List String) :
    Onward s (s.nextModel c kb rest models) (kb :: rest) := by
  cases models with
  | nil => exact onward_begin (List.Subset.refl _) (by rintro _ _ ⟨⟩)
  | cons model models =>
    rw [RunState.nextModel]
    split
    · exact onward_nextBatch _ _
    · exact onward_begin (List.Subset.refl _) (by rintro _ _ ⟨⟩)

/-- The lock opens the knowledge bases of the request; a knowledge base with a cursor is taken up
whatever the request; every other answer leads on among those left. -/
inductive Resumed (c : Config) (s t : RunState Vector) : Prop
  | onward : Onward s t s.stage.knowledgeBases → Resumed c s t
  | opened : s.stage = .asking → Onward s t
      (c.knowledgeBases.filter fun kb => s.request.knowledgeBases.contains kb.id) → Resumed c s t
  | indexed (kb : KnowledgeBaseConfig) (rest : List KnowledgeBaseConfig) : s.stage = .getCursor kb rest →
      t = s.begin (.recordRunStart kb.id) (.recordRunStart kb rest) → Resumed c s t

theorem onward_rest (h : Onward s t rest) : Onward s t (kb :: rest) :=
  h.mono (List.subset_cons_self _ _)

theorem knowledgeBases_of_indexing (h : stage.indexing = some (kb, rest)) : stage.knowledgeBases = kb :: rest := by
  cases stage with
  | recordRunEnd kb rest outcome =>
    cases outcome with
    | success =>
      cases h
      rfl
    | failure => cases h
    | interrupted => cases h
  | asking => cases h
  | getCursor kb rest => cases h
  | recordRunStart kb rest => cases h
  | embed kb rest model models chunks => cases h
  | unlock => cases h
  | ended => cases h
  | _ =>
    cases h
    rfl

theorem resumed_resume (h : s.resume c s.stage answer = some t) : Resumed c s t := by
  have hcontinues := continues_of_resume h
  generalize hstage : s.stage = stage at hcontinues
  cases hcontinues with
  | opened => exact .opened hstage (onward_nextKnowledgeBase _)
  | indexed kb rest cursor => exact .indexed kb rest hstage rfl
  | refused answer => exact .onward ⟨rfl, List.nil_subset _, by rintro _ _ ⟨⟩⟩
  | unlocked answer => exact .onward ⟨rfl, List.nil_subset _, by rintro _ _ ⟨⟩⟩
  | unindexed kb rest => exact .onward (hstage ▸ onward_rest (onward_nextKnowledgeBase rest))
  | recorded kb rest outcome answer => exact .onward (hstage ▸ onward_rest (onward_nextKnowledgeBase rest))
  | cursorFailed kb rest error => exact .onward onward_finish
  | startFailed kb rest error => exact .onward onward_finish
  | interrupted kb rest answer => exact .onward onward_finish
  | started kb rest =>
    refine .onward (hstage ▸ ?_)
    split
    · exact onward_begin (List.Subset.refl _) (by rintro _ _ ⟨⟩)
    · exact onward_begin (List.Subset.refl _) (by rintro _ _ ⟨⟩)
  | cursorRead kb rest cursor =>
    exact .onward (hstage ▸ onward_begin (List.Subset.refl _) (by rintro _ _ ⟨⟩))
  | reported kb rest changes => exact .onward (hstage ▸ onward_nextDocument _)
  | upserted kb rest changes documents => exact .onward (hstage ▸ onward_nextDocument _)
  | copied kb rest changes models => exact .onward (hstage ▸ onward_nextCopy _)
  | deleted kb rest changes =>
    exact .onward (hstage ▸ onward_begin (List.Subset.refl _) (by rintro _ _ ⟨⟩))
  | cursorSet kb rest => exact .onward (hstage ▸ onward_nextModel _)
  | counted kb rest model models backlog =>
    refine .onward (hstage ▸ ?_)
    split
    · exact onward_nextModel _
    · exact onward_nextBatch _ _
  | found kb rest model models chunks =>
    refine .onward (hstage ▸ ?_)
    split
    · exact onward_nextModel _
    · exact onward_begin (List.Subset.refl _) (by rintro _ _ ⟨⟩)
  | embedded kb rest model models chunks vectors =>
    exact .onward (hstage ▸ onward_begin (List.Subset.refl _) (by rintro _ _ ⟨⟩))
  | embedFailed kb rest model models chunks error =>
    exact .onward (hstage ▸ onward_unlessAborted (onward_nextModel _))
  | inserted kb rest model models inserted =>
    refine .onward (hstage ▸ ?_)
    split
    · exact onward_nextModel _
    · exact onward_nextBatch _ _
  | thrown error hindexing =>
    refine .onward ?_
    rw [hstage, knowledgeBases_of_indexing hindexing]
    exact onward_caught error

structure RunState.Of (s : RunState Vector) (q : RunRequest) : Prop where
  request : s.request = q
  within : ∀ kb ∈ s.stage.knowledgeBases, kb.id ∈ q.knowledgeBases

theorem of_resume {q : RunRequest} (hs : s.Of q) (h : s.resume c s.stage answer = some t) : t.Of q := by
  cases resumed_resume h with
  | onward ht => exact ⟨ht.request.trans hs.request, fun kb hkb => hs.within kb (ht.within hkb)⟩
  | opened _ ht =>
    refine ⟨ht.request.trans hs.request, fun kb hkb => ?_⟩
    rw [← hs.request]
    exact List.contains_iff_mem.mp (List.mem_filter.mp (ht.within hkb)).2
  | indexed kb rest hstage ht =>
    subst ht
    exact ⟨hs.request, fun kb hkb => hs.within kb (hstage ▸ hkb)⟩

theorem of_run {q : RunRequest} {events : List (Event Vector)}
    (h : run (RunState.step c) (.start q) events = some s) : s.Of q := by
  refine invariant (I := fun s : RunState Vector => s.Of q) (fun s e t hs hstep => ?_)
    ⟨rfl, fun _ hkb => by cases hkb⟩ h
  cases e with
  | lost message =>
    obtain rfl := Option.some.inj hstep
    exact ⟨hs.request, hs.within⟩
  | shutdown =>
    obtain rfl := Option.some.inj hstep
    exact ⟨hs.request, hs.within⟩
  | answer answer => exact of_resume hs hstep

theorem full_of_rebuilds {q : RunRequest} (hs : s.Of q) (h : s.step c (.answer answer) = some t)
    (hkb : Rebuilds s t kb) : kb.id ∈ q.knowledgeBases ∧ q.full = true := by
  obtain ⟨⟨rest, hstage⟩, rest', hchanges⟩ := hkb
  refine ⟨hs.within kb (hstage ▸ List.mem_cons_self), ?_⟩
  rw [RunState.step, hstage] at h
  cases answer with
  | done =>
    obtain rfl := Option.some.inj h
    rw [← hs.request]
    split at hchanges
    · rename_i hfull
      exact hfull
    · cases hchanges
  | failed error =>
    obtain rfl := Option.some.inj h
    unfold RunState.finish at hchanges
    split at hchanges
    · cases hchanges
    · cases hchanges
  | _ => cases h

theorem manual_of_builds {q : RunRequest} (hs : s.Of q) (h : s.step c (.answer answer) = some t)
    (hkb : Builds s t kb) : kb.id ∈ q.knowledgeBases ∧ q.manual = true := by
  obtain ⟨⟨rest, hstage⟩, hcursor⟩ := hkb
  refine ⟨(of_resume hs h).within kb (hstage ▸ List.mem_cons_self), ?_⟩
  rw [← hs.request]
  cases resumed_resume h with
  | onward ht => exact ht.manual kb rest hstage
  | opened _ ht => exact ht.manual kb rest hstage
  | indexed kb' rest' hasked ht =>
    subst ht
    obtain ⟨rfl, rfl⟩ := Stage.recordRunStart.inj hstage
    exact absurd hasked (hcursor rest')

section Queue

variable {requests : List RunRequest} {pending : Option RunRequest} {q : RunRequest}

theorem pending_of_triggers {loop : IndexingLoop.State} (hrunning : loop.running.isSome = true) :
    (requests.foldl IndexingLoop.State.trigger loop).pending = queuedBehind loop.pending requests := by
  induction requests generalizing loop with
  | nil => rfl
  | cons r requests ih =>
    have htrigger : loop.trigger r = { loop with
        pending := some (merge loop.pending r), log := loop.log ++ [.queued r] } := if_pos hrunning
    rw [List.foldl_cons, htrigger]
    exact ih hrunning

theorem queuedBehind_isSome (hne : requests ≠ []) : (queuedBehind pending requests).isSome = true := by
  induction requests generalizing pending with
  | nil => exact absurd rfl hne
  | cons r requests ih =>
    cases requests with
    | nil => rfl
    | cons r' requests => exact ih (List.cons_ne_nil r' requests)

theorem mem_queuedBehind {kb : String} (h : queuedBehind pending requests = some q) :
    kb ∈ q.knowledgeBases ↔
      (∃ r ∈ pending, kb ∈ r.knowledgeBases) ∨ ∃ r ∈ requests, kb ∈ r.knowledgeBases := by
  induction requests generalizing pending with
  | nil =>
    obtain rfl : pending = some q := h
    simp
  | cons r requests ih =>
    rw [ih h, List.exists_mem_cons_iff, ← or_assoc]
    refine or_congr_left ?_
    cases pending with
    | none => simp [merge]
    | some p => simp [merge]

theorem flag_queuedBehind {flag : RunRequest → Bool}
    (hflag : ∀ p r, flag (merge (some p) r) = (flag p || flag r))
    (h : queuedBehind pending requests = some q) :
    flag q = true ↔ (∃ r ∈ pending, flag r = true) ∨ ∃ r ∈ requests, flag r = true := by
  induction requests generalizing pending with
  | nil =>
    obtain rfl : pending = some q := h
    simp
  | cons r requests ih =>
    rw [ih h, List.exists_mem_cons_iff, ← or_assoc]
    refine or_congr_left ?_
    cases pending with
    | none => simp [merge]
    | some p => simp [hflag]

theorem named_of_uniform {flag : RunRequest → Bool} {kb : String}
    (hflag : ∀ p r, flag (merge (some p) r) = (flag p || flag r))
    (huniform : (∃ r ∈ requests, flag r = true) → ∀ r ∈ requests, ∀ kb ∈ r.knowledgeBases,
      ∃ r' ∈ requests, flag r' = true ∧ kb ∈ r'.knowledgeBases)
    (h : queuedBehind none requests = some q) (hkb : kb ∈ q.knowledgeBases) (hq : flag q = true) :
    ∃ r ∈ requests, kb ∈ r.knowledgeBases ∧ flag r = true := by
  obtain ⟨r, hr, hmem⟩ := ((mem_queuedBehind h).mp hkb).resolve_left (by rintro ⟨_, ⟨⟩, _⟩)
  have hsome := ((flag_queuedBehind hflag h).mp hq).resolve_left (by rintro ⟨_, ⟨⟩, _⟩)
  obtain ⟨r', hr', hfull, hmem'⟩ := huniform hsome r hr kb hmem
  exact ⟨r', hr', hmem', hfull⟩

end Queue

def plainKb (id : String) : KnowledgeBaseConfig where
  id := id
  tsConfig := "english"
  models := []
  chunking := .shortest
  git := ⟨[[]], []⟩

def plainConfig (id : String) : Config := ⟨[plainKb id], 0, 1⟩

theorem step_locked {q : RunRequest} {id : String} (hid : id ∈ q.knowledgeBases) :
    (RunState.start q : RunState Vector).step (plainConfig id) (.answer (.locked true)) =
      some (if q.manual then
        (RunState.start q).begin (.recordRunStart id) (.recordRunStart (plainKb id) [])
      else (RunState.start q).begin (.getCursor id) (.getCursor (plainKb id) [])) := by
  have hselected : ([plainKb id].filter fun kb => q.knowledgeBases.contains kb.id) = [plainKb id] := by
    simpa [plainKb] using hid
  change some ((RunState.start q).nextKnowledgeBase
    ([plainKb id].filter fun kb => q.knowledgeBases.contains kb.id)) = _
  rw [hselected]
  rfl

theorem builds_of_manual {q : RunRequest} {id : String} (hid : id ∈ q.knowledgeBases)
    (hmanual : q.manual = true) : ∃ t : RunState Vector,
      (RunState.start q : RunState Vector).step (plainConfig id) (.answer (.locked true)) = some t ∧
        Builds (RunState.start q) t (plainKb id) := by
  refine ⟨_, step_locked hid, ⟨[], ?_⟩, by rintro _ ⟨⟩⟩
  rw [if_pos hmanual]
  rfl

theorem taken_up {q : RunRequest} {id : String} (hid : id ∈ q.knowledgeBases) :
    ∃ (events : List (Event Vector)) (s : RunState Vector),
      run (RunState.step (plainConfig id)) (.start q) events = some s ∧ s.request = q ∧
        s.stage = .recordRunStart (plainKb id) [] := by
  cases hmanual : q.manual with
  | true =>
    refine ⟨[.answer (.locked true)], _, run_cons_eq_some.mpr ⟨_, step_locked hid, rfl⟩, ?_, ?_⟩
    · rw [if_pos hmanual]
      rfl
    · rw [if_pos hmanual]
      rfl
  | false =>
    have hasked := @step_locked Vector q id hid
    rw [hmanual] at hasked
    exact ⟨[.answer (.locked true), .answer (.cursor (some []))],
      ((RunState.start q).begin (.getCursor id) (.getCursor (plainKb id) [])).begin
        (.recordRunStart id) (.recordRunStart (plainKb id) []),
      run_cons_eq_some.mpr ⟨_, hasked, rfl⟩, rfl, rfl⟩

theorem rebuilds_of_full {q : RunRequest} {id : String} (hid : id ∈ q.knowledgeBases)
    (hfull : q.full = true) : ∃ (events : List (Event Vector)) (s t : RunState Vector),
      run (RunState.step (plainConfig id)) (.start q) events = some s ∧
        s.step (plainConfig id) (.answer .done) = some t ∧ Rebuilds s t (plainKb id) := by
  obtain ⟨events, s, hrun, hrequest, hstage⟩ := @taken_up Vector q id hid
  refine ⟨events, s, s.begin (.changes id none) (.changes (plainKb id) []), hrun, ?_,
    ⟨[], hstage⟩, [], rfl⟩
  rw [RunState.step, hstage]
  change some (if s.request.full then s.begin (.changes id none) (.changes (plainKb id) []) else _) = _
  rw [hrequest, if_pos hfull]

theorem merged_run_precise_iff (Vector : Type u) (requests : List RunRequest) :
    Precise Vector requests ↔ Uniform requests := by
  constructor
  · intro hprecise flag hflag hsome r hr kb hkb
    have hne : requests ≠ [] := List.ne_nil_of_mem hr
    have hmerged : (queuedBehind none requests).isSome = true := queuedBehind_isSome hne
    obtain ⟨q, hq⟩ := Option.isSome_iff_exists.mp hmerged
    have hid : kb ∈ q.knowledgeBases := (mem_queuedBehind hq).mpr (.inr ⟨r, hr, hkb⟩)
    rcases List.mem_pair.mp hflag with rfl | rfl
    · have hfull : q.full = true := (flag_queuedBehind (fun _ _ => rfl) hq).mpr (.inr hsome)
      obtain ⟨events, s, t, hrun, hstep, hrebuilds⟩ := @rebuilds_of_full Vector q kb hid hfull
      obtain ⟨r', hr', hmem, hr'full⟩ :=
        (hprecise _ q events .done s t (plainKb kb) hq hrun hstep).1 hrebuilds
      exact ⟨r', hr', hr'full, hmem⟩
    · have hmanual : q.manual = true := (flag_queuedBehind (fun _ _ => rfl) hq).mpr (.inr hsome)
      obtain ⟨t, hstep, hbuilds⟩ := @builds_of_manual Vector q kb hid hmanual
      obtain ⟨r', hr', hmem, hr'manual⟩ :=
        (hprecise _ q [] (.locked true) _ t (plainKb kb) hq rfl hstep).2 hbuilds
      exact ⟨r', hr', hr'manual, hmem⟩
  · intro huniform c q events answer s t kb hq hrun hstep
    have hs := of_run hrun
    constructor
    · intro hrebuilds
      obtain ⟨hmem, hfull⟩ := full_of_rebuilds hs hstep hrebuilds
      exact named_of_uniform (fun _ _ => rfl) (huniform _ List.mem_cons_self) hq hmem hfull
    · intro hbuilds
      obtain ⟨hmem, hmanual⟩ := manual_of_builds hs hstep hbuilds
      exact named_of_uniform (fun _ _ => rfl)
        (huniform _ (List.mem_cons_of_mem _ List.mem_cons_self)) hq hmem hmanual

def writtenMeanwhile : List RunRequest := [⟨["a"], true, true⟩, ⟨["b"], false, false⟩]

theorem merged_run_rebuilds_unasked : ¬Precise Nat writtenMeanwhile := by
  intro hprecise
  have hq : queuedBehind none writtenMeanwhile = some ⟨["a", "b"], true, true⟩ := by decide
  have hid : "b" ∈ (⟨["a", "b"], true, true⟩ : RunRequest).knowledgeBases := by decide
  obtain ⟨events, s, t, hrun, hstep, hrebuilds⟩ := @rebuilds_of_full Nat _ _ hid rfl
  obtain ⟨r, hr, hmem, hfull⟩ := (hprecise _ _ events .done s t (plainKb "b") hq hrun hstep).1 hrebuilds
  have hother : ∀ r ∈ writtenMeanwhile, r.full = true → "b" ∉ r.knowledgeBases := by decide
  exact hother r hr hfull hmem

end HomelabApps.KnowledgeBase.IndexingRun
