import HomelabApps.KnowledgeBase.IndexingRun

universe u

namespace HomelabApps.KnowledgeBase.IndexingRun

open HomelabApps.Library.Transition
open HomelabApps.Library.Utf16
open Store
open IndexingLoop (RunRequest)

variable {Vector : Type u} {c : Config}

def Call.writes : Call Vector → Bool
  | .upsert _ _ => true
  | .copyByHash _ _ => true
  | .delete _ _ => true
  | .deleteAllExcept _ _ => true
  | .setCursor _ _ => true
  | .insert _ _ => true
  | _ => false

def Call.takesUp : Call Vector → Bool
  | .recordRunStart _ => true
  | _ => false

def Call.unlocks : Call Vector → Bool
  | .unlock => true
  | _ => false

structure RunState.Stopped (s : RunState Vector) : Prop where
  writes : ∀ b ∈ s.begun, b.aborted = true → b.call.writes = false
  takesUp : ∀ b ∈ s.begun, b.aborted = true → b.call.takesUp = false
  unlocks : ∀ b ∈ s.begun, b.lost = true → b.call.unlocks = false

/-- The answers after which the run begins a write, or takes up a knowledge base, without asking its
signal. -/
def Stage.unchecked : Stage → Answer Vector → Bool
  | .getCursor _ _, .cursor (some _) => true
  | .changes kb _, .changes reported => reported.upserts.isEmpty && !kb.models.isEmpty
  | .upsert kb _ _ [], .done => !kb.models.isEmpty
  | .copyByHash _ _ _ (_ :: _), .done => true
  | .delete _ _ _, .done => true
  | .embed _ _ _ _ _, .vectors _ => true
  | _, _ => false

def RunState.Checked (s : RunState Vector) : Event Vector → Prop
  | .answer answer => (s.signal.isSome && s.stage.unchecked answer) = false
  | _ => True

instance (s : RunState Vector) (e : Event Vector) : Decidable (s.Checked e) :=
  match e with
  | .answer _ => inferInstanceAs (Decidable (_ = false))
  | .lost _ => .isTrue trivial
  | .shutdown => .isTrue trivial

variable {s t : RunState Vector} {kb : KnowledgeBaseConfig} {rest : List KnowledgeBaseConfig}

theorem stopped_congr (h : t.begun = s.begun) : t.Stopped ↔ s.Stopped := by
  constructor
  · exact fun hstopped => ⟨h ▸ hstopped.writes, h ▸ hstopped.takesUp, h ▸ hstopped.unlocks⟩
  · exact fun hstopped => ⟨h ▸ hstopped.writes, h ▸ hstopped.takesUp, h ▸ hstopped.unlocks⟩

theorem stopped_begin (call : Call Vector) (stage : Stage) :
    (s.begin call stage).Stopped ↔
      s.Stopped ∧ (s.signal.isSome = true → call.writes = false ∧ call.takesUp = false) ∧
        (s.lost = true → call.unlocks = false) := by
  constructor
  · rintro ⟨hwrites, htakesUp, hunlocks⟩
    simp only [RunState.begin, List.forall_mem_append, List.forall_mem_singleton] at hwrites htakesUp hunlocks
    exact ⟨⟨hwrites.1, htakesUp.1, hunlocks.1⟩, fun h => ⟨hwrites.2 h, htakesUp.2 h⟩, hunlocks.2⟩
  · rintro ⟨hs, hcall, hunlocks⟩
    refine ⟨?_, ?_, ?_⟩
    · simp only [RunState.begin, List.forall_mem_append, List.forall_mem_singleton]
      exact ⟨hs.writes, fun h => (hcall h).1⟩
    · simp only [RunState.begin, List.forall_mem_append, List.forall_mem_singleton]
      exact ⟨hs.takesUp, fun h => (hcall h).2⟩
    · simp only [RunState.begin, List.forall_mem_append, List.forall_mem_singleton]
      exact ⟨hs.unlocks, hunlocks⟩

theorem stopped_begin_quiet {call : Call Vector} (stage : Stage) (hwrites : call.writes = false)
    (htakesUp : call.takesUp = false) (hunlocks : call.unlocks = false) :
    (s.begin call stage).Stopped ↔ s.Stopped := by
  rw [stopped_begin]
  exact ⟨And.left, fun h => ⟨h, fun _ => ⟨hwrites, htakesUp⟩, fun _ => hunlocks⟩⟩

theorem stopped_begin_checked {call : Call Vector} (stage : Stage) (h : s.signal.isSome = false)
    (hunlocks : call.unlocks = false) : (s.begin call stage).Stopped ↔ s.Stopped := by
  rw [stopped_begin]
  refine ⟨And.left, fun hs => ⟨hs, fun haborted => ?_, fun _ => hunlocks⟩⟩
  rw [h] at haborted
  cases haborted

theorem stopped_begin_unchecked {call : Call Vector} (stage : Stage)
    (h : call.writes = true ∨ call.takesUp = true) (hunlocks : call.unlocks = false) :
    (s.begin call stage).Stopped ↔ s.Stopped ∧ s.signal.isSome = false := by
  rw [stopped_begin]
  constructor
  · rintro ⟨hs, hcall, -⟩
    refine ⟨hs, Bool.eq_false_iff.mpr fun haborted => ?_⟩
    obtain ⟨hwrites, htakesUp⟩ := hcall haborted
    rcases h with h | h
    · rw [hwrites] at h
      cases h
    · rw [htakesUp] at h
      cases h
  · rintro ⟨hs, haborted⟩
    refine ⟨hs, fun h => ?_, fun _ => hunlocks⟩
    rw [haborted] at h
    cases h

theorem stopped_finish : s.finish.Stopped ↔ s.Stopped := by
  unfold RunState.finish
  split
  · exact stopped_congr rfl
  · rename_i hlost
    rw [stopped_begin]
    exact ⟨And.left, fun h => ⟨h, fun _ => ⟨rfl, rfl⟩, fun h => absurd h hlost⟩⟩

theorem stopped_nextKnowledgeBase (kbs : List KnowledgeBaseConfig) :
    (s.nextKnowledgeBase kbs).Stopped ↔ s.Stopped := by
  unfold RunState.nextKnowledgeBase
  split
  · exact stopped_finish
  · split
    · exact stopped_finish
    · rename_i haborted
      rw [Bool.not_eq_true] at haborted
      split
      · exact stopped_begin_checked _ haborted rfl
      · exact stopped_begin_checked _ haborted rfl

theorem stopped_caught (error : String) : (s.caught kb rest error).Stopped ↔ s.Stopped := by
  unfold RunState.caught
  split
  · exact stopped_begin_quiet _ rfl rfl rfl
  · exact stopped_begin_quiet _ rfl rfl rfl

theorem stopped_unlessAborted {next : RunState Vector}
    (h : s.signal.isSome = false → (next.Stopped ↔ s.Stopped)) :
    (s.unlessAborted kb rest next).Stopped ↔ s.Stopped := by
  unfold RunState.unlessAborted
  split
  · exact stopped_caught _
  · rename_i hsignal
    exact h (by rw [hsignal, Option.isSome_none])

theorem stopped_deletion (changes : SourceChanges) : (s.deletion kb rest changes).Stopped ↔ s.Stopped := by
  refine stopped_unlessAborted fun h => ?_
  split
  · exact stopped_begin_checked _ h rfl
  · exact stopped_begin_checked _ h rfl

theorem stopped_nextCopy (changes : SourceChanges) (models : List String) :
    (s.nextCopy kb rest changes models).Stopped ↔
      s.Stopped ∧ (s.signal.isSome && !models.isEmpty) = false := by
  cases models with
  | nil =>
    rw [List.isEmpty_nil, Bool.not_true, Bool.and_false]
    exact (stopped_deletion changes).trans (and_iff_left rfl).symm
  | cons model models =>
    rw [List.isEmpty_cons, Bool.not_false, Bool.and_true]
    exact stopped_begin_unchecked _ (.inl rfl) rfl

theorem stopped_nextDocument (changes : SourceChanges) (documents : List SourceDocument) :
    (s.nextDocument kb rest changes documents).Stopped ↔
      s.Stopped ∧ (s.signal.isSome && (documents.isEmpty && !kb.models.isEmpty)) = false := by
  induction documents with
  | nil =>
    rw [List.isEmpty_nil, Bool.true_and]
    exact stopped_nextCopy changes kb.models
  | cons document documents ih =>
    rw [List.isEmpty_cons, Bool.false_and, Bool.and_false, and_iff_left rfl]
    refine stopped_unlessAborted fun h => ?_
    split
    · exact stopped_caught _
    · rw [ih, h, Bool.false_and]
      exact and_iff_left rfl
    · exact stopped_begin_checked _ h rfl

theorem stopped_nextBatch (model : String) (models : List String) :
    (s.nextBatch c kb rest model models).Stopped ↔ s.Stopped :=
  stopped_unlessAborted fun h => stopped_begin_checked _ h rfl

theorem stopped_nextModel (models : List String) :
    (s.nextModel c kb rest models).Stopped ↔ s.Stopped := by
  unfold RunState.nextModel
  split
  · exact stopped_begin_quiet _ rfl rfl rfl
  · split
    · exact stopped_nextBatch _ _
    · exact stopped_begin_quiet _ rfl rfl rfl

theorem unchecked_failed (stage : Stage) (error : String) :
    stage.unchecked (.failed error : Answer Vector) = false := by
  cases stage with
  | upsert kb rest changes documents => cases documents <;> rfl
  | copyByHash kb rest changes models => cases models <;> rfl
  | _ => rfl

theorem stopped_checked {answer : Answer Vector} {stage : Stage} (hchecked : stage.unchecked answer = false)
    (h : t.Stopped ↔ s.Stopped) : t.Stopped ↔ s.Stopped ∧ (s.signal.isSome && stage.unchecked answer) = false := by
  rw [hchecked, Bool.and_false, and_iff_left rfl, h]

theorem stopped_resume {stage : Stage} {answer : Answer Vector} (h : s.resume c stage answer = some t) :
    t.Stopped ↔ s.Stopped ∧ (s.signal.isSome && stage.unchecked answer) = false := by
  cases continues_of_resume h with
  | opened => exact stopped_checked rfl (stopped_nextKnowledgeBase _)
  | refused answer => exact stopped_checked rfl (stopped_congr rfl)
  | unlocked answer => exact stopped_checked rfl (stopped_congr rfl)
  | unindexed kb rest => exact stopped_checked rfl (stopped_nextKnowledgeBase _)
  | recorded kb rest outcome answer => exact stopped_checked rfl (stopped_nextKnowledgeBase _)
  | cursorFailed kb rest error => exact stopped_checked rfl stopped_finish
  | startFailed kb rest error => exact stopped_checked rfl stopped_finish
  | interrupted kb rest answer => exact stopped_checked rfl stopped_finish
  | indexed kb rest cursor =>
    rw [Stage.unchecked, Bool.and_true]
    exact stopped_begin_unchecked _ (.inr rfl) rfl
  | started kb rest =>
    refine stopped_checked rfl ?_
    split
    · exact stopped_begin_quiet _ rfl rfl rfl
    · exact stopped_begin_quiet _ rfl rfl rfl
  | cursorRead kb rest cursor => exact stopped_checked rfl (stopped_begin_quiet _ rfl rfl rfl)
  | reported kb rest changes => exact stopped_nextDocument changes changes.upserts
  | upserted kb rest changes documents =>
    refine (stopped_nextDocument changes documents).trans (and_congr_right fun _ => ?_)
    cases documents <;> rfl
  | copied kb rest changes models =>
    refine (stopped_nextCopy changes models).trans (and_congr_right fun _ => ?_)
    cases models <;> rfl
  | deleted kb rest changes =>
    rw [Stage.unchecked, Bool.and_true]
    exact stopped_begin_unchecked _ (.inl rfl) rfl
  | cursorSet kb rest => exact stopped_checked rfl (stopped_nextModel _)
  | counted kb rest model models backlog =>
    refine stopped_checked rfl ?_
    split
    · exact stopped_nextModel _
    · exact stopped_nextBatch _ _
  | found kb rest model models chunks =>
    refine stopped_checked rfl ?_
    split
    · exact stopped_nextModel _
    · exact stopped_begin_quiet _ rfl rfl rfl
  | embedded kb rest model models chunks vectors =>
    rw [Stage.unchecked, Bool.and_true]
    exact stopped_begin_unchecked _ (.inl rfl) rfl
  | embedFailed kb rest model models chunks error =>
    exact stopped_checked rfl (stopped_unlessAborted fun _ => stopped_nextModel _)
  | inserted kb rest model models inserted =>
    refine stopped_checked rfl ?_
    split
    · exact stopped_nextModel _
    · exact stopped_nextBatch _ _
  | thrown error hindexing => exact stopped_checked (unchecked_failed stage error) (stopped_caught error)

theorem stopped_step {e : Event Vector} (h : s.step c e = some t) :
    t.Stopped ↔ s.Stopped ∧ s.Checked e := by
  cases e with
  | lost message =>
    obtain rfl := Option.some.inj h
    have hchecked : s.Checked (.lost message) := trivial
    rw [and_iff_left hchecked]
    exact stopped_congr rfl
  | shutdown =>
    obtain rfl := Option.some.inj h
    have hchecked : s.Checked .shutdown := trivial
    rw [and_iff_left hchecked]
    exact stopped_congr rfl
  | answer answer => exact stopped_resume h

theorem stopped_run {events : List (Event Vector)} (h : run (RunState.step c) s events = some t) :
    t.Stopped ↔ s.Stopped ∧ Along (RunState.step c) RunState.Checked s events := by
  induction events generalizing s with
  | nil =>
    obtain rfl : s = t := by simpa using h
    exact (and_iff_left trivial).symm
  | cons e events ih =>
    obtain ⟨r, hr, hrun⟩ := run_cons_eq_some.mp h
    have hrest : Along (RunState.step c) RunState.Checked r events ↔
        ∀ t, RunState.step c s e = some t → Along (RunState.step c) RunState.Checked t events := by
      simp only [hr, Option.some.injEq, forall_eq']
    rw [ih hrun, stopped_step hr, and_assoc, hrest]
    rfl

theorem stops_when_aborted {request : RunRequest} {events : List (Event Vector)}
    (h : run (RunState.step c) (.start request) events = some s) :
    s.Stopped ↔ Along (RunState.step c) RunState.Checked (.start request) events := by
  have hstart : (RunState.start request : RunState Vector).Stopped := by
    refine ⟨?_, ?_, ?_⟩
    · rintro b hb -
      obtain rfl := List.mem_singleton.mp hb
      rfl
    · rintro b hb -
      obtain rfl := List.mem_singleton.mp hb
      rfl
    · rintro b hb -
      obtain rfl := List.mem_singleton.mp hb
      rfl
  rw [stopped_run h, and_iff_right hstart]

def indexedKb : KnowledgeBaseConfig where
  id := "notes"
  tsConfig := "english"
  models := ["m"]
  chunking := .shortest
  git := ⟨[[]], []⟩

def indexedConfig : Config := ⟨[indexedKb], 100, 8⟩

def deletingEvents : List (Event Nat) :=
  [.answer (.locked true), .answer .done, .answer (.changes ⟨[], [[97]], [49], false⟩), .answer .done]

def cursorLostEvents : List (Event Nat) :=
  deletingEvents ++ [.answer .done, .lost "terminated", .answer .done, .answer .done]

theorem stops_when_aborted_cursor :
    ∃ s : RunState Nat, s.lost = true ∧ s.begun.length = 7 ∧ s.Stopped := by
  have hend : (run (RunState.step indexedConfig) (.start ⟨["notes"], true, true⟩) cursorLostEvents).map
      (fun s => (s.lost, s.begun.length)) = some (true, 7) := by
    decide +kernel
  have halong : Along (RunState.step indexedConfig) RunState.Checked (.start ⟨["notes"], true, true⟩)
      cursorLostEvents := by
    decide +kernel
  obtain ⟨s, hs, hmap⟩ := Option.map_eq_some_iff.mp hend
  obtain ⟨hlost, hbegun⟩ := Prod.mk.inj hmap
  exact ⟨s, hlost, hbegun, (stops_when_aborted hs).mpr halong⟩

/-- The lock is lost while a document is deleted: the cursor is written all the same. -/
theorem cursor_after_lost_lock :
    ∃ s : RunState Nat, run (RunState.step indexedConfig) (.start ⟨["notes"], true, true⟩)
        (deletingEvents ++ [.lost "terminated", .answer .done]) = some s ∧ ¬s.Stopped := by
  have hend : (run (RunState.step indexedConfig) (.start ⟨["notes"], true, true⟩)
        (deletingEvents ++ [.lost "terminated", .answer .done])).map
      (fun s : RunState Nat => s.begun.any fun b => b.aborted && b.call.writes) = some true := by
    decide +kernel
  obtain ⟨s, hs, hany⟩ := Option.map_eq_some_iff.mp hend
  refine ⟨s, hs, fun hstopped => ?_⟩
  obtain ⟨b, hb, hboth⟩ := List.any_eq_true.mp hany
  obtain ⟨haborted, hwrites⟩ := (Bool.and_eq_true _ _).mp hboth
  rw [hstopped.writes b hb haborted] at hwrites
  cases hwrites

end HomelabApps.KnowledgeBase.IndexingRun
