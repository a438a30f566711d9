import HomelabApps.KnowledgeBase.DocumentWrite.Steps

namespace HomelabApps.KnowledgeBase.DocumentWrite

variable {base : Base} {s : State} {ev : Event} {e e' : Entry} {i : Nat} {call : Call}

inductive Retries (version : Option String) : Nat → List Request → List Read → Prop
  | first : Retries version 0 [] []
  | again (n m : Nat) (r : Read) : Retries version n ws rs → m ≤ r.moment →
    r.found.map (·.version) = version → n + 1 < MAX_ATTEMPTS →
    Retries version (n + 1) (ws ++ [.refused m]) (rs ++ [r])

inductive Shape (call : Call) : Stage → List Request → List Read → Prop
  | waiting : Shape call .waiting [] []
  | writing (n : Nat) (w : Request) : Retries call.command.version n ws rs →
    Shape call (.writing (n + 1)) (ws ++ [w]) rs
  | reading (n m : Nat) : Retries call.command.version n ws rs →
    Shape call (.reading (n + 1)) (ws ++ [.refused m]) rs
  | explaining (n m : Nat) (r : Read) : Retries call.command.version n ws rs → m ≤ r.moment →
    Shape call (.explaining (n + 1) r.found) (ws ++ [.refused m]) (rs ++ [r])
  | succeeded (n m : Nat) (result : SourceResult) : Retries call.command.version n ws rs →
    Shape call (.settled (.ok result)) (ws ++ [.landed m result]) rs
  | failed (n : Nat) (w : Request) (error : String) : Retries call.command.version n ws rs →
    Shape call (.settled (.error (.source error))) (ws ++ [w]) rs
  | explained (n m : Nat) (r : Read) (failure : Failure) : Retries call.command.version n ws rs →
    m ≤ r.moment →
    explain call.id call.command.version r.found (n + 1) call.command.advice = .error failure →
    Shape call (.settled (.error failure)) (ws ++ [.refused m]) (rs ++ [r])

variable {stage : Stage} {n m j k attempt : Nat} {ws : List Request} {rs : List Read}
  {version : Option String} {current : Option SourceFile} {result result' : SourceResult}
  {id advice message : String} {errors : List ErrorEntry} {commits : List Commit} {c : Commit}

theorem Retries.length (h : Retries version n ws rs) : ws.length = n ∧ rs.length = n := by
  induction h with
  | first => simp
  | again n m r _ _ _ _ ih => simp [ih]

theorem Retries.lt (h : Retries version n ws rs) : n < MAX_ATTEMPTS := by
  cases h with
  | first => decide
  | again _ _ _ _ _ _ hn => exact hn

theorem Retries.not_landed (h : Retries version n ws rs) : .landed m result ∉ ws := by
  induction h with
  | first => simp
  | again n m r _ _ _ _ ih => simp [ih]

theorem Shape.answer (h : Shape call stage ws rs) (hlast : ws.getLast? = some .pending)
    (w : Request) : Shape call stage (ws.dropLast ++ [w]) rs := by
  cases h with
  | waiting => simp at hlast
  | writing n w' h => simpa using Shape.writing n w h
  | reading => simp at hlast
  | explaining => simp at hlast
  | succeeded => simp at hlast
  | failed n w' error h => simpa using Shape.failed n w error h
  | explained => simp at hlast

theorem explain_ok (h : explain id version current attempt advice = .ok ()) :
    attempt < MAX_ATTEMPTS ∧ current.map (·.version) = version := by
  unfold explain at h
  split at h
  · cases h
  · split at h
    · exact ⟨‹_›, rfl⟩
    · cases h
  · cases h
  · split at h
    · cases h
    · rename_i hv
      simpa [and_comm] using hv

theorem shape_explain (h : Shape e.call e.stage e.writes e.reads)
    (hs : e.stage = .explaining attempt current) :
    Shape (e.explain attempt current).call (e.explain attempt current).stage
      (e.explain attempt current).writes (e.explain attempt current).reads := by
  obtain ⟨call, stage, writes, reads⟩ := e
  obtain rfl : stage = .explaining attempt current := hs
  cases h with
  | explaining n m r hr hm =>
    simp only [Entry.explain]
    split
    · rename_i failure hf
      exact .explained n m r failure hr hm hf
    · rename_i hok
      obtain ⟨hn, hv⟩ := explain_ok hok
      exact .writing (n + 1) .pending (.again n m r hr hm hv hn)

def Request.Sound (base : Base) (commits : List Commit) (i : Nat) (call : Call) : Request → Prop
  | .pending => True
  | .refused m => m ≤ commits.length
  | .landed m result => ∃ version commit,
      commits[m]? = some ⟨some i, call.kb.id, call.id, call.command.file version⟩ ∧
      (held base (commits.take m) call.kb.id call.id).map (·.version) = call.command.version ∧
      result = call.command.result version commit

def Read.Sound (base : Base) (commits : List Commit) (call : Call) (r : Read) : Prop :=
  r.moment ≤ commits.length ∧ r.found = held base (commits.take r.moment) call.kb.id call.id

structure Entry.Sound (base : Base) (commits : List Commit) (i : Nat) (e : Entry) : Prop where
  shape : Shape e.call e.stage e.writes e.reads
  writes : ∀ w ∈ e.writes, w.Sound base commits i e.call
  reads : ∀ r ∈ e.reads, r.Sound base commits e.call

theorem take_append_of_le (h : m ≤ commits.length) : (commits ++ [c]).take m = commits.take m := by
  rw [List.take_append_of_le_length h]

theorem getElem?_append_of_some {l l' : List α} {x : α} (h : l[m]? = some x) :
    (l ++ l')[m]? = some x := by
  rw [List.getElem?_append_left (List.getElem?_eq_some_iff.mp h).1, h]

theorem Request.Sound.append {w : Request} (h : w.Sound base commits i call) :
    w.Sound base (commits ++ [c]) i call := by
  cases w with
  | pending => trivial
  | refused m =>
    simp only [Request.Sound, List.length_append] at h ⊢
    omega
  | landed m result =>
    obtain ⟨version, commit, hm, hv, hr⟩ := h
    refine ⟨version, commit, getElem?_append_of_some hm, ?_, hr⟩
    rw [take_append_of_le (Nat.le_of_lt (List.getElem?_eq_some_iff.mp hm).1), hv]

theorem Read.Sound.append {r : Read} (h : r.Sound base commits call) :
    r.Sound base (commits ++ [c]) call := by
  obtain ⟨hm, hf⟩ := h
  refine ⟨by simp only [List.length_append]; omega, ?_⟩
  rw [take_append_of_le hm, hf]

theorem Entry.Sound.append (h : e.Sound base commits i) : e.Sound base (commits ++ [c]) i where
  shape := h.shape
  writes w hw := (h.writes w hw).append
  reads r hr := (h.reads r hr).append

theorem Entry.Sound.answer (h : e.Sound base commits i) (hlast : e.writes.getLast? = some .pending)
    {w : Request} (hw : w.Sound base commits i e.call) : (e.answer w).Sound base commits i where
  shape := h.shape.answer hlast w
  writes v hv := by
    rcases List.mem_append.mp hv with hv | hv
    · exact h.writes v (List.dropLast_subset _ hv)
    · exact List.mem_singleton.mp hv ▸ hw
  reads := h.reads

theorem move_call (h : Move base s i e ev e') : e'.call = e.call := by
  cases h with
  | explain attempt current => unfold Entry.explain; split <;> rfl
  | _ => rfl

theorem landed_answer (hlast : e.writes.getLast? = some .pending)
    (hmem : .landed m result ∈ e.writes) (w : Request) :
    .landed m result ∈ (e.answer w).writes := by
  have hne : e.writes ≠ [] := List.ne_nil_of_mem hmem
  rw [← List.dropLast_append_getLast hne] at hmem
  rw [List.getLast?_eq_some_getLast hne] at hlast
  rcases List.mem_append.mp hmem with hmem | hmem
  · exact List.mem_append_left _ hmem
  · simp [Option.some.inj hlast] at hmem

theorem move_writes (h : Move base s i e ev e') (hmem : .landed m result ∈ e.writes) :
    .landed m result ∈ e'.writes := by
  cases h with
  | start => exact List.mem_append_left _ hmem
  | refuse hlast => exact landed_answer hlast hmem _
  | explain attempt current =>
    unfold Entry.explain
    split
    · exact hmem
    · exact List.mem_append_left _ hmem
  | _ => exact hmem

theorem Entry.Sound.ask (h : e.Sound base commits i) (hs : e.stage = .waiting) :
    (e.ask 1).Sound base commits i := by
  obtain ⟨call, stage, ws, rs⟩ := e
  obtain rfl : stage = .waiting := hs
  cases h.shape with
  | waiting =>
    refine ⟨.writing 0 .pending .first, fun w hw => ?_, h.reads⟩
    exact List.mem_singleton.mp hw ▸ trivial

theorem Entry.Sound.settle (h : e.Sound base commits i)
    (hs : e.stage = .writing attempt ∨ e.stage = .reading attempt) (error : String) :
    (e.settle (.error (.source error))).Sound base commits i := by
  refine ⟨?_, h.writes, h.reads⟩
  obtain ⟨call, stage, ws, rs⟩ := e
  rcases hs with rfl | rfl
  · cases h.shape with
    | writing n w hr => exact .failed n w error hr
  · cases h.shape with
    | reading n m hr => exact .failed n (.refused m) error hr

theorem Entry.Sound.readBack (h : e.Sound base commits i) (hs : e.stage = .writing attempt)
    (hlast : e.writes.getLast? = some (.refused m)) :
    { e with stage := .reading attempt }.Sound base commits i := by
  refine ⟨?_, h.writes, h.reads⟩
  obtain ⟨call, stage, ws, rs⟩ := e
  obtain rfl : stage = .writing attempt := hs
  cases h.shape with
  | writing n w hr =>
    obtain rfl : w = .refused m := by simpa using hlast
    exact .reading n m hr

theorem Entry.Sound.serve (h : e.Sound base commits i) (hs : e.stage = .reading attempt)
    (r : Read) (hr : r.Sound base commits e.call) (hm : r.moment = commits.length) :
    { e with stage := .explaining attempt r.found, reads := e.reads ++ [r] }.Sound base commits i := by
  refine ⟨?_, h.writes, fun r' hr' => ?_⟩
  · obtain ⟨call, stage, ws, rs⟩ := e
    obtain rfl : stage = .reading attempt := hs
    cases h.shape with
    | reading n m hret =>
      have hle : m ≤ commits.length := h.writes (.refused m) (by simp)
      exact .explaining n m r hret (hm ▸ hle)
  · rcases List.mem_append.mp hr' with hr' | hr'
    · exact h.reads r' hr'
    · exact List.mem_singleton.mp hr' ▸ hr

theorem Entry.Sound.explain (h : e.Sound base commits i) (hs : e.stage = .explaining attempt current) :
    (e.explain attempt current).Sound base commits i := by
  refine ⟨shape_explain h.shape hs, ?_, ?_⟩
  all_goals
    unfold Entry.explain
    split
  · exact h.writes
  · intro w hw
    rcases List.mem_append.mp hw with hw | hw
    · exact h.writes w hw
    · exact List.mem_singleton.mp hw ▸ trivial
  · exact h.reads
  · exact h.reads

theorem Entry.Sound.succeed (h : e.Sound base commits i) (hs : e.stage = .writing attempt)
    (hlast : e.writes.getLast? = some (.landed m result)) :
    (e.settle (.ok result)).Sound base commits i := by
  refine ⟨?_, h.writes, h.reads⟩
  obtain ⟨call, stage, ws, rs⟩ := e
  obtain rfl : stage = .writing attempt := hs
  cases h.shape with
  | writing n w hr =>
    obtain rfl : w = .landed m result := by simpa using hlast
    exact .succeeded n m result hr

theorem move_sound (h : e.Sound base s.commits i) (hm : Move base s i e ev e') :
    e'.Sound base s.commits i := by
  cases hm with
  | start hs => exact h.ask hs
  | refuse hlast => exact h.answer hlast (Nat.le_refl _)
  | refused attempt m hs hlast => exact h.readBack hs hlast
  | serve attempt hs =>
    exact h.serve hs ⟨s.commits.length, held base s.commits e.call.kb.id e.call.id⟩
      ⟨Nat.le_refl _, by rw [List.take_length]⟩ rfl
  | explain attempt current hs => exact h.explain hs
  | failWriting attempt error hs => exact h.settle (.inl hs) error
  | failReading attempt error hs => exact h.settle (.inr hs) error

theorem Shape.parts (h : Shape call stage ws rs) (hne : ws ≠ []) : ∃ n ws' w rs' rest,
    Retries call.command.version n ws' rs' ∧ ws = ws' ++ [w] ∧ rs = rs' ++ rest := by
  cases h with
  | waiting => exact absurd rfl hne
  | writing n w h => exact ⟨n, _, w, rs, [], h, rfl, (List.append_nil _).symm⟩
  | reading n m h => exact ⟨n, _, _, rs, [], h, rfl, (List.append_nil _).symm⟩
  | explaining n m r h => exact ⟨n, _, _, _, [r], h, rfl, rfl⟩
  | succeeded n m result h => exact ⟨n, _, _, rs, [], h, rfl, (List.append_nil _).symm⟩
  | failed n w error h => exact ⟨n, _, w, rs, [], h, rfl, (List.append_nil _).symm⟩
  | explained n m r failure h => exact ⟨n, _, _, _, [r], h, rfl, rfl⟩

theorem Shape.length_writes (h : Shape call stage ws rs) : ws.length ≤ MAX_ATTEMPTS := by
  by_cases hne : ws = []
  · simp [hne]
  · obtain ⟨n, ws', w, rs', rest, hr, rfl, rfl⟩ := h.parts hne
    have hn := hr.lt
    rw [← hr.length.1] at hn
    rw [List.length_append, List.length_singleton]
    exact hn

theorem Shape.landed (h : Shape call stage ws rs) (hs : stage = .settled (.ok result)) :
    ∃ m, .landed m result ∈ ws := by
  cases h with
  | succeeded n m result' =>
    cases hs
    exact ⟨m, by simp⟩
  | _ => cases hs

theorem Shape.landed_unique (h : Shape call stage ws rs) (hm : .landed m result ∈ ws)
    (hk : .landed k result' ∈ ws) : m = k := by
  obtain ⟨n, ws', w, rs', rest, hr, rfl, rfl⟩ := h.parts (List.ne_nil_of_mem hm)
  have hm := (List.mem_append.mp hm).resolve_left hr.not_landed
  have hk := (List.mem_append.mp hk).resolve_left hr.not_landed
  have heq := (List.mem_singleton.mp hm).trans (List.mem_singleton.mp hk).symm
  cases heq
  rfl

theorem Retries.head (h : Retries version n ws rs) (hn : n ≠ 0) : ∃ m r,
    ws[0]? = some (.refused m) ∧ rs[0]? = some r ∧ m ≤ r.moment ∧
      r.found.map (·.version) = version := by
  induction h with
  | first => exact absurd rfl hn
  | again n m r hr hm hv _ ih =>
    cases n with
    | zero =>
      cases hr with
      | first => exact ⟨m, r, rfl, rfl, hm, hv⟩
    | succ n =>
      obtain ⟨m', r', hw, hr', hle, hv'⟩ := ih (by omega)
      exact ⟨m', r', getElem?_append_of_some hw, getElem?_append_of_some hr', hle, hv'⟩

theorem Shape.retried {w : Request} (h : Shape call stage ws rs) (hw : ws[1]? = some w) : ∃ m r,
    ws[0]? = some (.refused m) ∧ rs[0]? = some r ∧ m ≤ r.moment ∧
      r.found.map (·.version) = call.command.version := by
  obtain ⟨n, ws', w', rs', rest, hr, rfl, rfl⟩ := h.parts (by rintro rfl; simp at hw)
  have hlen := (List.getElem?_eq_some_iff.mp hw).1
  rw [List.length_append, hr.length.1, List.length_singleton] at hlen
  obtain ⟨m, r, hm, hr', hle, hv⟩ := hr.head (by omega)
  exact ⟨m, r, getElem?_append_of_some hm, getElem?_append_of_some hr', hle, hv⟩

theorem explain_notFound (h : explain id version current attempt advice = .error (.notFound message)) :
    version ≠ none ∧ current = none := by
  unfold explain at h
  split at h
  · cases h
  · split at h <;> cases h
  · exact ⟨by simp, rfl⟩
  · split at h <;> cases h

theorem explain_conflict
    (h : explain id version current attempt advice = .error (.conflict message errors)) :
    errors = [] ∨ ∃ file, current = some file ∧
      Failure.conflict message errors = conflict message file := by
  unfold explain at h
  split at h
  · rename_i file
    obtain ⟨rfl, rfl⟩ : _ = message ∧ _ = errors := by simpa [conflict] using h
    exact .inr ⟨file, rfl, rfl⟩
  · split at h
    · cases h
    · cases h; exact .inl rfl
  · cases h
  · rename_i file
    split at h
    · obtain ⟨rfl, rfl⟩ : _ = message ∧ _ = errors := by simpa [conflict] using h
      exact .inr ⟨file, rfl, rfl⟩
    · cases h

theorem Entry.Sound.answered {failure : Failure} (h : e.Sound base commits i)
    (hs : e.stage = .settled (.error failure)) (hsource : ∀ error, failure ≠ .source error) :
    ∃ n m r, e.writes.getLast? = some (.refused m) ∧ e.reads.getLast? = some r ∧ m ≤ r.moment ∧
      DocumentWrite.explain e.call.id e.call.command.version r.found (n + 1) e.call.command.advice =
        .error failure := by
  obtain ⟨call, stage, ws, rs⟩ := e
  obtain rfl : stage = .settled (.error failure) := hs
  cases h.shape with
  | failed n w error => exact absurd rfl (hsource error)
  | explained n m r _ _ hm hex => exact ⟨n, m, r, by simp, by simp, hm, hex⟩

end HomelabApps.KnowledgeBase.DocumentWrite
