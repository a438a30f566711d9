import HomelabApps.KnowledgeBase.DocumentWrite

namespace HomelabApps.KnowledgeBase.DocumentWrite

open HomelabApps.Library
open HomelabApps.KnowledgeBase.IndexingLoop (RunRequest)

variable {base : Base} {s t : State} {ev : Event} {evs : List Event} {e e' : Entry} {i : Nat}
  {call : Call}

inductive Move (base : Base) (s : State) (i : Nat) (e : Entry) : Event → Entry → Prop
  | start : e.stage = .waiting → s.free i → Move base s i e (.start i) (e.ask 1)
  | refuse : e.writes.getLast? = some .pending →
    Move base s i e (.refuse i) (e.answer (.refused s.commits.length))
  | refused (attempt m : Nat) : e.stage = .writing attempt → e.writes.getLast? = some (.refused m) →
    Move base s i e (.receive i) { e with stage := .reading attempt }
  | serve (attempt : Nat) : e.stage = .reading attempt →
    Move base s i e (.serve i)
      { e with
        stage := .explaining attempt (held base s.commits e.call.kb.id e.call.id)
        reads := e.reads ++ [⟨s.commits.length, held base s.commits e.call.kb.id e.call.id⟩] }
  | explain (attempt : Nat) (current : Option SourceFile) : e.stage = .explaining attempt current →
    Move base s i e (.explain i) (e.explain attempt current)
  | failWriting (attempt : Nat) (error : String) : e.stage = .writing attempt →
    Move base s i e (.fail i error) (e.settle (.error (.source error)))
  | failReading (attempt : Nat) (error : String) : e.stage = .reading attempt →
    Move base s i e (.fail i error) (e.settle (.error (.source error)))

inductive Step (base : Base) (s : State) : Event → State → Prop
  | throw (call : Call) (failure : Failure) :
    Step base s (.arrive call) { s with thrown := s.thrown ++ [failure] }
  | arrive (call : Call) : Step base s (.arrive call) { s with calls := s.calls ++ [{ call := call }] }
  | move (ev : Event) (i : Nat) (e e' : Entry) : s.calls[i]? = some e → Move base s i e ev e' →
    Step base s ev (s.set i e')
  | land (i : Nat) (e : Entry) (version commit : String) : s.calls[i]? = some e →
    e.writes.getLast? = some .pending →
    (held base s.commits e.call.kb.id e.call.id).map (·.version) = e.call.command.version →
    Step base s (.land i version commit)
      { s.set i (e.answer (.landed s.commits.length (e.call.command.result version commit))) with
        commits := s.commits ++ [⟨some i, e.call.kb.id, e.call.id, e.call.command.file version⟩] }
  | succeed (i : Nat) (e : Entry) (attempt m : Nat) (result : SourceResult) : s.calls[i]? = some e →
    e.stage = .writing attempt → e.writes.getLast? = some (.landed m result) →
    Step base s (.receive i)
      { s.set i (e.settle (.ok result)) with
        indexRequests := s.indexRequests ++ [index e.call.kb] }
  | foreign (kb id : String) (file : Option SourceFile) :
    Step base s (.foreign kb id file) { s with commits := s.commits ++ [⟨none, kb, id, file⟩] }

theorem receive_cases (he : s.calls[i]? = some e) (h : s.receive i e = some t) :
    Step base s (.receive i) t := by
  unfold State.receive at h
  split at h
  · rename_i attempt m result hstage hlast
    cases h
    exact .succeed i e attempt m result he hstage hlast
  · rename_i attempt m hstage hlast
    cases h
    exact .move _ i e _ he (.refused attempt m hstage hlast)
  · cases h

theorem step_cases (h : step base s ev = some t) : Step base s ev t := by
  cases ev with
  | arrive call =>
    simp only [step] at h
    split at h
    · cases h; exact .throw call _
    · cases h; exact .arrive call
  | start i =>
    simp only [step] at h
    split at h
    · rename_i e he
      split at h
      · rename_i hs
        split at h
        · rename_i hfree; cases h; exact .move _ i e _ he (.start hs hfree)
        · cases h
      · cases h
    · cases h
  | land i version commit =>
    simp only [step] at h
    split at h
    · rename_i e he
      split at h
      · rename_i hw; cases h; exact .land i e version commit he hw.1 hw.2
      · cases h
    · cases h
  | refuse i =>
    simp only [step] at h
    split at h
    · rename_i e he
      split at h
      · rename_i hw; cases h; exact .move _ i e _ he (.refuse hw)
      · cases h
    · cases h
  | receive i =>
    obtain ⟨e, he, h⟩ := Option.bind_eq_some_iff.mp h
    exact receive_cases he h
  | serve i =>
    simp only [step] at h
    split at h
    · rename_i e he
      split at h
      · rename_i attempt hs; cases h; exact .move _ i e _ he (.serve attempt hs)
      · cases h
    · cases h
  | explain i =>
    simp only [step] at h
    split at h
    · rename_i e he
      split at h
      · rename_i attempt current hs; cases h; exact .move _ i e _ he (.explain attempt current hs)
      · cases h
    · cases h
  | fail i error =>
    simp only [step] at h
    split at h
    · rename_i e he
      split at h
      · rename_i attempt hs; cases h; exact .move _ i e _ he (.failWriting attempt error hs)
      · rename_i attempt hs; cases h; exact .move _ i e _ he (.failReading attempt error hs)
      · cases h
    · cases h
  | foreign kb id file => cases h; exact .foreign kb id file

end HomelabApps.KnowledgeBase.DocumentWrite
