import HomelabApps.KnowledgeBase.DocumentWrite.Calls
import HomelabApps.Library.Lists

namespace HomelabApps.KnowledgeBase.DocumentWrite

open HomelabApps.Library
open HomelabApps.KnowledgeBase.IndexingLoop (RunRequest)

variable {base : Base} {s t : State} {ev : Event} {e e' : Entry} {i j m : Nat} {attempt : Nat}
  {commits : List Commit} {c : Commit} {result : SourceResult}

def Entry.Settled (e : Entry) : Prop := ∃ outcome, e.stage = .settled outcome

def Entry.indexed (e : Entry) : Option RunRequest :=
  if e.succeeded then some (index e.call.kb) else none

theorem move_settled (h : Move base s i e ev e') (hs : e.Settled) : e'.Settled := by
  obtain ⟨outcome, hs⟩ := hs
  cases h with
  | refuse => exact ⟨outcome, hs⟩
  | start h => simp [hs] at h
  | refused _ _ h => simp [hs] at h
  | serve _ h => simp [hs] at h
  | explain _ _ h => simp [hs] at h
  | failWriting _ _ h => simp [hs] at h
  | failReading _ _ h => simp [hs] at h

theorem move_indexed (h : Move base s i e ev e') : e'.indexed = e.indexed := by
  cases h with
  | start h => simp [Entry.indexed, Entry.succeeded, Entry.ask, h]
  | refuse => rfl
  | refused _ _ h => simp [Entry.indexed, Entry.succeeded, h]
  | serve _ h => simp [Entry.indexed, Entry.succeeded, h]
  | explain _ _ h =>
    unfold Entry.explain
    split <;> simp [Entry.indexed, Entry.succeeded, Entry.ask, Entry.settle, h]
  | failWriting _ _ h => simp [Entry.indexed, Entry.succeeded, Entry.settle, h]
  | failReading _ _ h => simp [Entry.indexed, Entry.succeeded, Entry.settle, h]

theorem move_waiting (h : Move base s i e ev e') (hw : e.stage = .waiting)
    (hw' : e'.stage ≠ .waiting) : s.free i := by
  cases h with
  | start _ hfree => exact hfree
  | refuse => exact absurd hw hw'
  | refused _ _ h => simp [hw] at h
  | serve _ h => simp [hw] at h
  | explain _ _ h => simp [hw] at h
  | failWriting _ _ h => simp [hw] at h
  | failReading _ _ h => simp [hw] at h

def InTurn (calls : List Entry) : Prop :=
  ∀ (i j : Nat) (a b : Entry), i < j → calls[i]? = some a → calls[j]? = some b →
    b.stage ≠ .waiting → a.Settled

theorem InTurn.free (h : InTurn s.calls) (hfree : s.free j) {a : Entry} (hij : i < j)
    (ha : s.calls[i]? = some a) : a.Settled := by
  cases j with
  | zero => omega
  | succ k =>
    simp only [State.free] at hfree
    split at hfree
    · rename_i call outcome ws rs hk
      rcases Nat.lt_succ_iff_lt_or_eq.mp hij with hik | rfl
      · exact h i k a _ hik ha hk (by simp)
      · obtain rfl := Option.some.inj (ha.symm.trans hk)
        exact ⟨outcome, rfl⟩
    · cases hfree

theorem InTurn.set (h : InTurn s.calls) (he : s.calls[i]? = some e) (hset : e.Settled → e'.Settled)
    (hwait : e.stage = .waiting → e'.stage ≠ .waiting → s.free i) : InTurn (s.calls.set i e') := by
  intro j k a b hjk ha hb hbw
  rcases getElem?_set_cases ha with ⟨rfl, rfl⟩ | ⟨hj, ha'⟩
  · rcases getElem?_set_cases hb with ⟨rfl, rfl⟩ | ⟨hk, hb'⟩
    · omega
    · exact hset (h j k e b hjk he hb' hbw)
  · rcases getElem?_set_cases hb with ⟨rfl, rfl⟩ | ⟨hk, hb'⟩
    · by_cases hw : e.stage = .waiting
      · exact h.free (hwait hw hbw) hjk ha'
      · exact h j k a e hjk ha' he hw
    · exact h j k a b hjk ha' hb' hbw

theorem InTurn.arrive (h : InTurn s.calls) (call : Call) :
    InTurn (s.calls ++ [{ call := call }]) := by
  intro j k a b hjk ha hb hbw
  rcases getElem?_concat_cases hb with hb | ⟨-, rfl⟩
  · have hk := (List.getElem?_eq_some_iff.mp hb).1
    rcases getElem?_concat_cases ha with ha | ⟨rfl, -⟩
    · exact h j k a b hjk ha hb hbw
    · omega
  · exact absurd rfl hbw

theorem inTurn_step (h : InTurn s.calls) (hstep : step base s ev = some t) : InTurn t.calls := by
  cases step_cases hstep with
  | throw => exact h
  | arrive call => exact h.arrive call
  | move ev i e e' he hm => exact h.set he (move_settled hm) (move_waiting hm)
  | land i e _ _ he => exact h.set he id fun hw hw' => absurd hw hw'
  | succeed i e attempt m result he hs =>
    exact h.set he (fun _ => ⟨_, rfl⟩) fun hw => by simp [hs] at hw
  | foreign => exact h

def Authored (s : State) : Prop :=
  ∀ (m : Nat) (c : Commit) (i : Nat), s.commits[m]? = some c → c.author = some i →
    ∃ e result, s.calls[i]? = some e ∧ .landed m result ∈ e.writes

theorem landed_set (he : s.calls[i]? = some e)
    (hset : ∀ m result, Request.landed m result ∈ e.writes → .landed m result ∈ e'.writes)
    (h : ∃ e result, s.calls[j]? = some e ∧ .landed m result ∈ e.writes) :
    ∃ e result, (s.calls.set i e')[j]? = some e ∧ .landed m result ∈ e.writes := by
  obtain ⟨a, result, ha, hmem⟩ := h
  by_cases hij : i = j
  · subst hij
    obtain rfl := Option.some.inj (he.symm.trans ha)
    exact ⟨e', result, List.getElem?_set_self (List.getElem?_eq_some_iff.mp he).1, hset m result hmem⟩
  · exact ⟨a, result, by rw [List.getElem?_set_ne hij, ha], hmem⟩

theorem Authored.land (h : Authored s) (he : s.calls[i]? = some e)
    (hlast : e.writes.getLast? = some .pending) (file : Option SourceFile) :
    Authored
      { s.set i (e.answer (.landed s.commits.length result)) with
        commits := s.commits ++ [⟨some i, e.call.kb.id, e.call.id, file⟩] } := by
  intro m c j hc hj
  rcases getElem?_concat_cases hc with hc | ⟨rfl, rfl⟩
  · exact landed_set he (fun _ _ hmem => landed_answer hlast hmem _) (h m c j hc hj)
  · obtain rfl : i = j := Option.some.inj hj
    exact ⟨_, result, List.getElem?_set_self (List.getElem?_eq_some_iff.mp he).1,
      List.mem_append_right _ (List.mem_singleton.mpr rfl)⟩

theorem authored_step (h : Authored s) (hstep : step base s ev = some t) : Authored t := by
  cases step_cases hstep with
  | throw => exact h
  | arrive call =>
    intro m c j hc hj
    obtain ⟨e, result, he, hmem⟩ := h m c j hc hj
    exact ⟨e, result, by rw [List.getElem?_append_left (List.getElem?_eq_some_iff.mp he).1, he], hmem⟩
  | move ev i e e' he hm =>
    exact fun m c j hc hj => landed_set he (fun _ _ => move_writes hm) (h m c j hc hj)
  | land i e version commit he hlast => exact h.land he hlast _
  | succeed i e attempt m result he =>
    exact fun m c j hc hj => landed_set he (fun _ _ => id) (h m c j hc hj)
  | foreign kb id file =>
    intro m c j hc hj
    rcases getElem?_concat_cases hc with hc | ⟨rfl, rfl⟩
    · exact h m c j hc hj
    · cases hj

def EntriesSound (base : Base) (s : State) : Prop :=
  ∀ (i : Nat) (e : Entry), s.calls[i]? = some e → e.Sound base s.commits i

theorem entries_step (h : EntriesSound base s) (hstep : step base s ev = some t) :
    EntriesSound base t := by
  intro j a ha
  cases step_cases hstep with
  | throw => exact h j a ha
  | arrive call =>
    rcases getElem?_concat_cases ha with ha | ⟨-, rfl⟩
    · exact h j a ha
    · exact ⟨.waiting, by simp, by simp⟩
  | move ev i e e' he hm =>
    rcases getElem?_set_cases ha with ⟨rfl, rfl⟩ | ⟨hj, ha'⟩
    · exact move_sound (s := s) (h j e he) hm
    · exact h j a ha'
  | land i e version commit he hlast hver =>
    rcases getElem?_set_cases ha with ⟨rfl, rfl⟩ | ⟨hj, ha'⟩
    · refine (h j e he).append.answer hlast ⟨version, commit, ?_, ?_, rfl⟩
      · simp
      · rw [List.take_left', hver]
        rfl
    · exact (h j a ha').append
  | succeed i e attempt m result he hs hlast =>
    rcases getElem?_set_cases ha with ⟨rfl, rfl⟩ | ⟨hj, ha'⟩
    · exact (h j e he).succeed hs hlast
    · exact h j a ha'
  | foreign => exact (h j a ha).append

theorem filterMap_set_of_eq {l : List Entry} (e' : Entry) (he : l[i]? = some e) (h : e'.indexed = e.indexed) :
    (l.set i e').filterMap Entry.indexed = l.filterMap Entry.indexed := by
  induction l generalizing i with
  | nil => rfl
  | cons a l ih =>
    cases i with
    | zero =>
      obtain rfl : a = e := by simpa using he
      simp [List.filterMap_cons, h]
    | succ i => simp [List.filterMap_cons, ih (i := i) (by simpa using he)]

theorem filterMap_set_last {l : List Entry} (e' : Entry) (request : RunRequest) (he : l[i]? = some e)
    (hnone : e.indexed = none) (hsome : e'.indexed = some request)
    (hafter : ∀ (j : Nat) (a : Entry), i < j → l[j]? = some a → a.indexed = none) :
    (l.set i e').filterMap Entry.indexed = l.filterMap Entry.indexed ++ [request] := by
  induction l generalizing i with
  | nil => simp at he
  | cons a l ih =>
    cases i with
    | zero =>
      obtain rfl : a = e := by simpa using he
      have htail : l.filterMap Entry.indexed = [] := by
        refine List.filterMap_eq_nil_iff.mpr fun b hb => ?_
        obtain ⟨j, hj⟩ := List.mem_iff_getElem?.mp hb
        exact hafter (j + 1) b (by omega) (by simpa using hj)
      simp [hnone, hsome, htail]
    | succ i =>
      have := ih (i := i) (by simpa using he)
        fun j b hij hb => hafter (j + 1) b (by omega) (by simpa using hb)
      simp only [List.set_cons_succ, List.filterMap_cons, this]
      cases a.indexed <;> simp

def Indexed (s : State) : Prop := s.indexRequests = s.calls.filterMap Entry.indexed

theorem indexed_step (hturn : InTurn s.calls) (h : Indexed s) (hstep : step base s ev = some t) :
    Indexed t := by
  cases step_cases hstep with
  | throw => exact h
  | arrive call =>
    change s.indexRequests = (s.calls ++ [_]).filterMap Entry.indexed
    rw [List.filterMap_append, ← h]
    simp [Entry.indexed, Entry.succeeded]
  | move ev i e e' he hm => exact h.trans (filterMap_set_of_eq _ he (move_indexed hm)).symm
  | land i e version commit he => exact h.trans (filterMap_set_of_eq (e.answer _) he rfl).symm
  | succeed i e attempt m result he hs =>
    have hnone : e.indexed = none := by simp [Entry.indexed, Entry.succeeded, hs]
    have hafter : ∀ (j : Nat) (a : Entry), i < j → s.calls[j]? = some a → a.indexed = none := by
      intro j a hij ha
      by_cases hw : a.stage = .waiting
      · simp [Entry.indexed, Entry.succeeded, hw]
      · obtain ⟨outcome, ho⟩ := hturn i j e a hij he ha hw
        simp [hs] at ho
    have hlast := filterMap_set_last (e.settle (.ok result)) (index e.call.kb)
      he hnone rfl hafter
    change s.indexRequests ++ [_] = _
    rw [h, State.set, hlast]
  | foreign => exact h

structure Protocol (base : Base) (s : State) : Prop where
  inTurn : InTurn s.calls
  goesOn : ∀ (i : Nat) (e : Entry), s.calls[i]? = some e → e.stage = .waiting →
    (∀ (j : Nat) (a : Entry), j < i → s.calls[j]? = some a → a.Settled) →
    (step base s (.start i)).isSome
  atMostTwoWrites : ∀ e ∈ s.calls, e.writes.length ≤ 2
  atMostOneLands : ∀ (i m n : Nat) (c d : Commit), s.commits[m]? = some c → c.author = some i →
    s.commits[n]? = some d → d.author = some i → m = n
  replaced : ∀ (i : Nat) (e : Entry) (result : SourceResult), s.calls[i]? = some e →
    e.stage = .settled (.ok result) → ∃ m version commit,
      s.commits[m]? = some ⟨some i, e.call.kb.id, e.call.id, e.call.command.file version⟩ ∧
      (held base (s.commits.take m) e.call.kb.id e.call.id).map (·.version) = e.call.command.version ∧
      result = e.call.command.result version commit
  freshReads : ∀ e ∈ s.calls, ∀ r ∈ e.reads, r.Sound base s.commits e.call
  retried : ∀ e ∈ s.calls, ∀ w, e.writes[1]? = some w → ∃ m r, e.writes[0]? = some (.refused m) ∧
    e.reads[0]? = some r ∧ m ≤ r.moment ∧ r.found.map (·.version) = e.call.command.version
  notFound : ∀ e ∈ s.calls, ∀ message, e.stage = .settled (.error (.notFound message)) →
    e.call.command.version ≠ none ∧ ∃ m r, e.writes.getLast? = some (.refused m) ∧
      e.reads.getLast? = some r ∧ m ≤ r.moment ∧ r.found = none
  conflict : ∀ e ∈ s.calls, ∀ message errors, e.stage = .settled (.error (.conflict message errors)) →
    errors = [] ∨ ∃ m r current, e.writes.getLast? = some (.refused m) ∧
      e.reads.getLast? = some r ∧ m ≤ r.moment ∧ r.found = some current ∧
      .conflict message errors = DocumentWrite.conflict message current
  indexed : s.indexRequests = s.calls.filterMap fun e =>
    if e.succeeded then some ⟨[e.call.kb.id], false, false⟩ else none

structure State.Sound (base : Base) (s : State) : Prop where
  entries : EntriesSound base s
  inTurn : InTurn s.calls
  authored : Authored s
  indexed : Indexed s

theorem sound_step (h : s.Sound base) (hstep : step base s ev = some t) : t.Sound base where
  entries := entries_step h.entries hstep
  inTurn := inTurn_step h.inTurn hstep
  authored := authored_step h.authored hstep
  indexed := indexed_step h.inTurn h.indexed hstep

theorem start_enabled (he : s.calls[i]? = some e) (hw : e.stage = .waiting)
    (hbefore : ∀ (j : Nat) (a : Entry), j < i → s.calls[j]? = some a → a.Settled) :
    (step base s (.start i)).isSome := by
  have hfree : s.free i := by
    cases i with
    | zero => rfl
    | succ k =>
      have hk : k < s.calls.length := Nat.lt_of_succ_lt (List.getElem?_eq_some_iff.mp he).1
      obtain ⟨⟨call, stage, ws, rs⟩, ha⟩ : ∃ a, s.calls[k]? = some a := ⟨_, List.getElem?_eq_getElem hk⟩
      obtain ⟨outcome, rfl⟩ : ∃ outcome, stage = .settled outcome := hbefore k _ (Nat.lt_succ_self k) ha
      simp [State.free, ha]
  simp [step, he, hw, hfree]

theorem State.Sound.protocol (h : s.Sound base) : Protocol base s where
  inTurn := h.inTurn
  goesOn _ _ he hw := start_enabled he hw
  atMostTwoWrites e he := by
    obtain ⟨i, hi⟩ := List.mem_iff_getElem?.mp he
    exact (h.entries i e hi).shape.length_writes
  atMostOneLands i m n c d hc hci hd hdi := by
    obtain ⟨e, result, he, hm⟩ := h.authored m c i hc hci
    obtain ⟨e', result', he', hn⟩ := h.authored n d i hd hdi
    obtain rfl := Option.some.inj (he.symm.trans he')
    exact (h.entries i e he).shape.landed_unique hm hn
  replaced i e result he hs := by
    obtain ⟨m, hmem⟩ := (h.entries i e he).shape.landed hs
    obtain ⟨version, commit, hc, hv, hr⟩ := (h.entries i e he).writes _ hmem
    exact ⟨m, version, commit, hc, hv, hr⟩
  freshReads e he r hr := by
    obtain ⟨i, hi⟩ := List.mem_iff_getElem?.mp he
    exact (h.entries i e hi).reads r hr
  retried e he w hw := by
    obtain ⟨i, hi⟩ := List.mem_iff_getElem?.mp he
    exact (h.entries i e hi).shape.retried hw
  notFound e he message hs := by
    obtain ⟨i, hi⟩ := List.mem_iff_getElem?.mp he
    obtain ⟨n, m, r, hw, hr, hm, hex⟩ := (h.entries i e hi).answered hs (by simp)
    obtain ⟨hv, hnone⟩ := explain_notFound hex
    exact ⟨hv, m, r, hw, hr, hm, hnone⟩
  conflict e he message errors hs := by
    obtain ⟨i, hi⟩ := List.mem_iff_getElem?.mp he
    obtain ⟨n, m, r, hw, hr, hm, hex⟩ := (h.entries i e hi).answered hs (by simp)
    exact (explain_conflict hex).imp_right fun ⟨current, hcur, hconf⟩ =>
      ⟨m, r, current, hw, hr, hm, hcur, hconf⟩
  indexed := h.indexed

theorem writes_lose_no_update (base : Base) (evs : List Event) :
    Transition.Always (step base) (Protocol base) {} evs := by
  have hinit : State.Sound base {} := ⟨by simp [EntriesSound], by simp [InTurn], by simp [Authored], rfl⟩
  exact (Transition.always_of_along (fun _ _ _ h _ => sound_step h) hinit
    Transition.along_true).mono fun _ h => h.protocol

end HomelabApps.KnowledgeBase.DocumentWrite
