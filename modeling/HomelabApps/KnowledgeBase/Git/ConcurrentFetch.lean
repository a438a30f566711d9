import HomelabApps.KnowledgeBase.Git.Documents
import HomelabApps.Library.Transition

/-! `GitSourceAdapter.fetch`: workers that read the blobs from a shared cursor, in every order in which their reads
come back. -/

universe u v w

namespace HomelabApps.KnowledgeBase.Git

open HomelabApps.Library.Transition

variable {File : Type u} {Document : Type v} {Error : Type w}

inductive Worker
  | reading (index : Nat)
  | done
  | failed
  deriving DecidableEq

/-- `aborted` is the reason of the workers' signal, `rejected` what `Promise.all` rejects with, and `reads` the
reads that were started. -/
structure Fetch (Document : Type v) (Error : Type w) where
  next : Nat := 0
  documents : List (Option Document)
  workers : List Worker := []
  aborted : Option Error
  rejected : Option Error := none
  reads : List Nat := []

def Fetch.fail (s : Fetch Document Error) (error : Error) : Fetch Document Error × Worker :=
  ({ s with
      aborted := s.aborted.or (some error)
      rejected := s.rejected.or (some error) }, .failed)

def Fetch.turn (blobs : List File) (s : Fetch Document Error) : Fetch Document Error × Worker :=
  if s.next < blobs.length then
    match s.aborted with
    | some reason => s.fail reason
    | none =>
      ({ s with
          next := s.next + 1
          reads := s.reads ++ [s.next] }, .reading s.next)
  else (s, .done)

def Fetch.resume (document : File → Except Error Document) (blobs : List File) (s : Fetch Document Error) (index : Nat)
    (blob : File) : Option Error → Fetch Document Error × Worker
  | some error => s.fail error
  | none =>
    match document blob with
    | .error error => s.fail error
    | .ok document => Fetch.turn blobs { s with documents := s.documents.set index (some document) }

inductive FetchLabel (Error : Type w)
  | resume (worker : Nat) (failure : Option Error)
  | abort (reason : Error)

def Fetch.step (document : File → Except Error Document) (blobs : List File) (s : Fetch Document Error) :
    FetchLabel Error → Option (Fetch Document Error)
  | .resume i failure =>
    match s.workers[i]? with
    | some (.reading index) =>
      match blobs[index]? with
      | some blob =>
        let (t, worker) := s.resume document blobs index blob failure
        some { t with workers := t.workers.set i worker }
      | none => none
    | _ => none
  | .abort reason => some { s with aborted := s.aborted.or (some reason) }

def Fetch.spawn (blobs : List File) (s : Fetch Document Error) : Fetch Document Error :=
  let (t, worker) := s.turn blobs
  { t with workers := t.workers ++ [worker] }

/-- The workers are started one after the other, each up to its first read; `signal` is the reason of a signal that is
aborted already. -/
def Fetch.start (blobs : List File) (concurrency : Nat) (signal : Option Error) : Fetch Document Error :=
  (Fetch.spawn blobs)^[min concurrency blobs.length]
    { documents := List.replicate blobs.length none
      aborted := signal }

inductive Outcome (Document : Type v) (Error : Type w)
  | pending
  | resolved (documents : List (Option Document))
  | rejected (error : Error)

def Fetch.outcome (s : Fetch Document Error) : Outcome Document Error :=
  match s.rejected with
  | some error => .rejected error
  | none => if s.workers.all (· = .done) then .resolved s.documents else .pending

def Fetch.throws (document : File → Except Error Document) (blobs : List File) (s : Fetch Document Error) (blob : File) :
    Option Error → Option Error
  | some error => some error
  | none =>
    match document blob with
    | .error error => some error
    | .ok _ => if s.next < blobs.length then s.aborted else none

def failureOf (document : File → Except Error Document) (blobs : List File) (s : Fetch Document Error) :
    FetchLabel Error → Option Error
  | .resume i failure =>
    match s.workers[i]? with
    | some (.reading index) => blobs[index]?.bind fun blob => s.throws document blobs blob failure
    | _ => none
  | .abort _ => none

def Worker.isReading : Worker → Bool
  | .reading _ => true
  | _ => false

structure Fetch.Inv (document : File → Except Error Document) (blobs : List File) (s : Fetch Document Error)
    (workers : List Worker) : Prop where
  next_le : s.next ≤ blobs.length
  reads : s.reads = List.range s.next
  length : s.documents.length = blobs.length
  stored : ∀ (i : Nat) (d : Document), s.documents[i]? = some (some d) →
    ∃ blob, blobs[i]? = some blob ∧ document blob = .ok d
  reading : ∀ i, .reading i ∈ workers → i < s.next
  covered : s.rejected = none → ∀ i < s.next, (∃ d, s.documents[i]? = some (some d)) ∨ .reading i ∈ workers
  done : .done ∈ workers → s.next = blobs.length
  failed : .failed ∈ workers → s.rejected ≠ none
  aborted : s.rejected ≠ none → s.aborted ≠ none

variable {document : File → Except Error Document} {blobs : List File} {s t : Fetch Document Error}
  {workers workers' : List Worker} {worker : Worker} {index n : Nat} {blob : File} {error : Error}
  {failure : Option Error} {e : FetchLabel Error} {es : List (FetchLabel Error)}

theorem Fetch.Inv.congr (h : s.Inv document blobs workers) (hmem : ∀ worker, worker ∈ workers' ↔ worker ∈ workers) :
    s.Inv document blobs workers' where
  next_le := h.next_le
  reads := h.reads
  length := h.length
  stored := h.stored
  reading i hi := h.reading i ((hmem _).mp hi)
  covered hrejected i hi := (h.covered hrejected i hi).imp_right (hmem _).mpr
  done hdone := h.done ((hmem _).mp hdone)
  failed hfailed := h.failed ((hmem _).mp hfailed)
  aborted := h.aborted

theorem Fetch.Inv.fail (h : s.Inv document blobs workers) (hsub : workers' ⊆ workers) (error : Error) :
    (s.fail error).1.Inv document blobs ((s.fail error).2 :: workers') where
  next_le := h.next_le
  reads := h.reads
  length := h.length
  stored := h.stored
  reading i hi := h.reading i (hsub ((List.mem_cons.mp hi).resolve_left (by rintro ⟨⟩)))
  covered hrejected := by
    rw [Fetch.fail] at hrejected
    cases hs : s.rejected <;> simp [hs] at hrejected
  done hdone := h.done (hsub ((List.mem_cons.mp hdone).resolve_left (by rintro ⟨⟩)))
  failed _ := by
    rw [Fetch.fail]
    cases hs : s.rejected <;> simp
  aborted _ := by
    rw [Fetch.fail]
    cases hs : s.aborted <;> simp

theorem Fetch.Inv.turn (h : s.Inv document blobs workers) :
    (s.turn blobs).1.Inv document blobs ((s.turn blobs).2 :: workers) := by
  unfold Fetch.turn
  split
  · rename_i hnext
    split
    · exact h.fail (List.Subset.refl _) _
    · rename_i haborted
      exact
        { next_le := hnext
          reads := by rw [h.reads, List.range_succ]
          length := h.length
          stored := h.stored
          reading := by
            intro i hi
            cases List.mem_cons.mp hi with
            | inl hi =>
              cases hi
              exact Nat.lt_succ_self _
            | inr hi => exact Nat.lt_succ_of_lt (h.reading i hi)
          covered := by
            intro hrejected i hi
            cases Nat.lt_succ_iff_lt_or_eq.mp hi with
            | inl hi => exact (h.covered hrejected i hi).imp_right (List.mem_cons_of_mem _)
            | inr hi => exact .inr (List.mem_cons.mpr (.inl (congrArg Worker.reading hi)))
          done := fun hdone => by
            have hold := h.done ((List.mem_cons.mp hdone).resolve_left (by rintro ⟨⟩))
            omega
          failed := fun hfailed => h.failed ((List.mem_cons.mp hfailed).resolve_left (by rintro ⟨⟩))
          aborted := h.aborted }
  · rename_i hnext
    exact
      { next_le := h.next_le
        reads := h.reads
        length := h.length
        stored := h.stored
        reading := fun i hi => h.reading i ((List.mem_cons.mp hi).resolve_left (by rintro ⟨⟩))
        covered := fun hrejected i hi => (h.covered hrejected i hi).imp_right (List.mem_cons_of_mem _)
        done := fun _ => Nat.le_antisymm h.next_le (Nat.le_of_not_lt hnext)
        failed := fun hfailed => h.failed ((List.mem_cons.mp hfailed).resolve_left (by rintro ⟨⟩))
        aborted := h.aborted }

theorem Fetch.Inv.put {d : Document} (h : s.Inv document blobs (.reading index :: workers))
    (hblob : blobs[index]? = some blob) (hd : document blob = .ok d) :
    Fetch.Inv document blobs { s with documents := s.documents.set index (some d) } workers where
  next_le := h.next_le
  reads := h.reads
  length := by rw [List.length_set, h.length]
  stored i d' hi := by
    rw [List.getElem?_set] at hi
    split at hi
    · rename_i heq
      split at hi
      · rw [Option.some_inj, Option.some_inj] at hi
        exact ⟨blob, heq ▸ hblob, hi ▸ hd⟩
      · cases hi
    · exact h.stored i d' hi
  reading i hi := h.reading i (List.mem_cons_of_mem _ hi)
  covered hrejected i hi := by
    by_cases heq : index = i
    · subst heq
      refine .inl ⟨d, ?_⟩
      rw [List.getElem?_set, if_pos rfl, if_pos]
      rw [h.length]
      exact Nat.lt_of_lt_of_le hi h.next_le
    · cases h.covered hrejected i hi with
      | inl hstored => exact .inl (by rwa [List.getElem?_set_ne heq])
      | inr hreading =>
        refine .inr ((List.mem_cons.mp hreading).resolve_left fun h => heq ?_)
        exact (Worker.reading.inj h).symm
  done hdone := h.done (List.mem_cons_of_mem _ hdone)
  failed hfailed := h.failed (List.mem_cons_of_mem _ hfailed)
  aborted := h.aborted

theorem Fetch.Inv.resume (h : s.Inv document blobs (.reading index :: workers)) (hblob : blobs[index]? = some blob)
    (failure : Option Error) : (s.resume document blobs index blob failure).1.Inv document blobs
      ((s.resume document blobs index blob failure).2 :: workers) := by
  cases failure with
  | some error => exact h.fail (List.subset_cons_self _ _) error
  | none =>
    unfold Fetch.resume
    cases hd : document blob with
    | error error => exact h.fail (List.subset_cons_self _ _) error
    | ok d => exact (h.put hblob hd).turn

theorem Fetch.Inv.withWorkers (h : s.Inv document blobs workers) :
    Fetch.Inv document blobs { s with workers := workers' } workers :=
  ⟨h.next_le, h.reads, h.length, h.stored, h.reading, h.covered, h.done, h.failed, h.aborted⟩

theorem workers_turn : (s.turn blobs).1.workers = s.workers := by
  unfold Fetch.turn
  split
  · split <;> rfl
  · rfl

theorem workers_resume : (s.resume document blobs index blob failure).1.workers = s.workers := by
  cases failure with
  | some error => rfl
  | none =>
    unfold Fetch.resume
    cases document blob with
    | error error => rfl
    | ok d => exact workers_turn

theorem step_resume {i : Nat} (h : s.step document blobs (.resume i failure) = some t) :
    ∃ before after index blob, s.workers = before ++ .reading index :: after ∧ s.workers[i]? = some (.reading index) ∧
      blobs[index]? = some blob ∧
      t = { (s.resume document blobs index blob failure).1 with
              workers := before ++ (s.resume document blobs index blob failure).2 :: after } := by
  unfold Fetch.step at h
  dsimp only at h
  split at h
  · rename_i index hworker
    split at h
    · rename_i blob hblob
      obtain ⟨hi, hget⟩ := List.getElem?_eq_some_iff.mp hworker
      refine ⟨s.workers.take i, s.workers.drop (i + 1), index, blob, ?_, hworker, hblob, ?_⟩
      · rw [← hget, ← List.drop_eq_getElem_cons hi, List.take_append_drop]
      · rw [← Option.some.inj h, workers_resume, List.set_eq_take_append_cons_drop, if_pos hi]
    · cases h
  · cases h

theorem Fetch.Inv.step (h : s.Inv document blobs s.workers) (hstep : s.step document blobs e = some t) :
    t.Inv document blobs t.workers := by
  cases e with
  | resume i failure =>
    obtain ⟨before, after, index, blob, hworkers, -, hblob, rfl⟩ := step_resume hstep
    have hfront : s.Inv document blobs (.reading index :: (before ++ after)) :=
      h.congr fun worker => by rw [hworkers]; simp [or_left_comm]
    exact (hfront.resume hblob failure).withWorkers.congr fun worker => by simp [or_left_comm]
  | abort reason =>
    cases hstep
    exact ⟨h.next_le, h.reads, h.length, h.stored, h.reading, h.covered, h.done, h.failed, fun _ => by
      cases s.aborted <;> simp⟩

theorem Fetch.Inv.spawn (h : s.Inv document blobs s.workers) :
    (s.spawn blobs).Inv document blobs (s.spawn blobs).workers := by
  rw [Fetch.spawn]
  dsimp only
  rw [workers_turn]
  exact h.turn.withWorkers.congr fun worker => by simp [or_comm]

def Fetch.initial (blobs : List File) (signal : Option Error) : Fetch Document Error where
  documents := List.replicate blobs.length none
  aborted := signal

theorem inv_initial {signal : Option Error} :
    (Fetch.initial blobs signal : Fetch Document Error).Inv document blobs [] where
  next_le := Nat.zero_le _
  reads := rfl
  length := List.length_replicate
  stored i d h := by
    rw [Fetch.initial, List.getElem?_replicate] at h
    split at h <;> cases h
  reading _ h := absurd h List.not_mem_nil
  covered _ i hi := absurd hi (Nat.not_lt_zero i)
  done h := absurd h List.not_mem_nil
  failed h := absurd h List.not_mem_nil
  aborted h := absurd rfl h

theorem inv_start (blobs : List File) (concurrency : Nat) (signal : Option Error) :
    (Fetch.start blobs concurrency signal : Fetch Document Error).Inv document blobs
      (Fetch.start blobs concurrency signal : Fetch Document Error).workers := by
  unfold Fetch.start
  generalize min concurrency blobs.length = n
  induction n with
  | zero => exact inv_initial
  | succ n ih =>
    rw [Function.iterate_succ_apply']
    exact ih.spawn

variable {concurrency : Nat} {signal : Option Error}

theorem inv_run (hrun : run (Fetch.step document blobs) (Fetch.start blobs concurrency signal) es = some t) :
    t.Inv document blobs t.workers :=
  invariant (I := fun s => s.Inv document blobs s.workers) (fun _ _ _ h hstep => h.step hstep) (inv_start ..) hrun

theorem length_step (hstep : s.step document blobs e = some t) : t.workers.length = s.workers.length := by
  cases e with
  | resume i failure =>
    obtain ⟨before, after, index, blob, hworkers, -, -, rfl⟩ := step_resume hstep
    simp [hworkers]
  | abort reason =>
    cases hstep
    rfl

theorem length_start :
    (Fetch.start blobs concurrency signal : Fetch Document Error).workers.length = min concurrency blobs.length := by
  unfold Fetch.start
  generalize min concurrency blobs.length = n
  induction n with
  | zero => rfl
  | succ n ih =>
    rw [Function.iterate_succ_apply', Fetch.spawn]
    dsimp only
    rw [List.length_append, workers_turn, ih, List.length_singleton]

theorem length_run (hrun : run (Fetch.step document blobs) (Fetch.start blobs concurrency signal) es = some t) :
    t.workers.length = min concurrency blobs.length :=
  invariant (I := fun s => s.workers.length = min concurrency blobs.length)
    (fun _ _ _ h hstep => (length_step hstep).trans h) length_start hrun

theorem exists_map_some {l : List (Option Document)} (h : ∀ i < l.length, ∃ d, l[i]? = some (some d)) :
    ∃ ds : List Document, l = ds.map some := by
  induction l with
  | nil => exact ⟨[], rfl⟩
  | cons x l ih =>
    obtain ⟨d, hd⟩ := h 0 (Nat.zero_lt_succ _)
    obtain ⟨ds, rfl⟩ := ih fun i hi => h (i + 1) (Nat.succ_lt_succ hi)
    rw [List.getElem?_cons_zero, Option.some_inj] at hd
    exact ⟨d :: ds, by rw [hd, List.map_cons]⟩

theorem Fetch.Inv.resolved (h : t.Inv document blobs t.workers) (hlength : t.workers.length = min concurrency blobs.length)
    (hconcurrency : 1 ≤ concurrency) (hrejected : t.rejected = none) (hdone : t.workers.all (· = .done)) :
    ∃ ds : List Document, t.documents = ds.map some ∧ List.Forall₂ (fun blob d => document blob = .ok d) blobs ds := by
  have hnext : t.next = blobs.length := by
    cases hworkers : t.workers with
    | nil =>
      have hnone : blobs.length = 0 := by
        rw [hworkers, List.length_nil] at hlength
        omega
      exact Nat.le_antisymm h.next_le (hnone ▸ Nat.zero_le _)
    | cons worker workers =>
      have hworker : worker = .done := by
        rw [hworkers] at hdone
        simpa using (List.all_eq_true.mp hdone) worker List.mem_cons_self
      exact h.done (hworkers ▸ hworker ▸ List.mem_cons_self)
  have hread : ∀ i < blobs.length, ∃ d, t.documents[i]? = some (some d) := by
    intro i hi
    refine (h.covered hrejected i (hnext ▸ hi)).resolve_right fun hreading => ?_
    have := List.all_eq_true.mp hdone _ hreading
    simp at this
  obtain ⟨ds, hds⟩ := exists_map_some (h.length ▸ hread)
  have hlengths : blobs.length = ds.length := by rw [← h.length, hds, List.length_map]
  refine ⟨ds, hds, List.forall₂_iff_get.mpr ⟨hlengths, fun i hi hi' => ?_⟩⟩
  have hplace : t.documents[i]? = some (some (ds.get ⟨i, hi'⟩)) := by
    rw [hds, List.getElem?_map, List.getElem?_eq_getElem hi']
    rfl
  obtain ⟨blob, hblob, hd⟩ := h.stored i _ hplace
  obtain ⟨_, rfl⟩ := List.getElem?_eq_some_iff.mp hblob
  exact hd

theorem resume_spec : match s.throws document blobs blob failure with
    | some error =>
      (s.resume document blobs index blob failure).1.rejected = s.rejected.or (some error) ∧
        (s.resume document blobs index blob failure).1.aborted = s.aborted.or (some error) ∧
        (s.resume document blobs index blob failure).1.reads = s.reads
    | none =>
      (s.resume document blobs index blob failure).1.rejected = s.rejected ∧
        (s.resume document blobs index blob failure).1.aborted = s.aborted ∧
        (s.aborted ≠ none → (s.resume document blobs index blob failure).1.reads = s.reads) := by
  cases failure with
  | some error => exact ⟨rfl, rfl, rfl⟩
  | none =>
    unfold Fetch.throws Fetch.resume
    dsimp only
    cases document blob with
    | error error => exact ⟨rfl, rfl, rfl⟩
    | ok d =>
      unfold Fetch.turn
      dsimp only
      by_cases hnext : s.next < blobs.length
      · rw [if_pos hnext, if_pos hnext]
        cases haborted : s.aborted with
        | some reason => exact ⟨rfl, rfl, rfl⟩
        | none => exact ⟨rfl, rfl, fun h => absurd rfl h⟩
      · rw [if_neg hnext, if_neg hnext]
        exact ⟨rfl, rfl, fun _ => rfl⟩

theorem step_failure (hfailure : failureOf document blobs s e = some error) (hstep : s.step document blobs e = some t) :
    t.rejected = s.rejected.or (some error) ∧ t.aborted = s.aborted.or (some error) ∧ t.reads = s.reads := by
  cases e with
  | resume i failure =>
    obtain ⟨before, after, index, blob, -, hworker, hblob, rfl⟩ := step_resume hstep
    have hthrows : s.throws document blobs blob failure = some error := by
      simpa [failureOf, hworker, hblob] using hfailure
    have hspec := @resume_spec _ _ _ document blobs s index blob failure
    rw [hthrows] at hspec
    exact hspec
  | abort reason => cases hfailure

theorem step_no_failure (hfailure : failureOf document blobs s e = none) (hstep : s.step document blobs e = some t) :
    t.rejected = s.rejected ∧ (s.aborted ≠ none → t.aborted ≠ none ∧ t.reads = s.reads) := by
  cases e with
  | resume i failure =>
    obtain ⟨before, after, index, blob, -, hworker, hblob, rfl⟩ := step_resume hstep
    have hthrows : s.throws document blobs blob failure = none := by
      simpa [failureOf, hworker, hblob] using hfailure
    have hspec := @resume_spec _ _ _ document blobs s index blob failure
    rw [hthrows] at hspec
    exact ⟨hspec.1, fun haborted => ⟨fun h => haborted (hspec.2.1 ▸ h), hspec.2.2 haborted⟩⟩
  | abort reason =>
    cases hstep
    refine ⟨rfl, fun haborted => ⟨?_, rfl⟩⟩
    cases hs : s.aborted with
    | none => exact absurd hs haborted
    | some reason' => simp

theorem reads_of_aborted (haborted : s.aborted ≠ none) (hstep : s.step document blobs e = some t) :
    t.aborted ≠ none ∧ t.reads = s.reads := by
  cases hfailure : failureOf document blobs s e with
  | none => exact (step_no_failure hfailure hstep).2 haborted
  | some error =>
    obtain ⟨-, hreason, hreads⟩ := step_failure hfailure hstep
    refine ⟨?_, hreads⟩
    rw [hreason]
    cases s.aborted <;> simp

theorem rejected_stays (hrejected : s.rejected = some error) (hstep : s.step document blobs e = some t) :
    t.rejected = some error := by
  cases hfailure : failureOf document blobs s e with
  | none => rw [(step_no_failure hfailure hstep).1, hrejected]
  | some error' =>
    rw [(step_failure hfailure hstep).1, hrejected]
    rfl

theorem run_of_rejected (hrejected : s.rejected = some error) (haborted : s.aborted ≠ none)
    (hrun : run (Fetch.step document blobs) s es = some t) : t.rejected = some error ∧ t.reads = s.reads := by
  have hinvariant := invariant (I := fun u => u.rejected = some error ∧ u.aborted ≠ none ∧ u.reads = s.reads)
    (fun u e u' h hstep => by
      obtain ⟨hkeeps, hreads⟩ := reads_of_aborted h.2.1 hstep
      exact ⟨rejected_stays h.1 hstep, hkeeps, hreads.trans h.2.2⟩) ⟨hrejected, haborted, rfl⟩ hrun
  exact ⟨hinvariant.1, hinvariant.2.2⟩

def Fetch.openReads (s : Fetch Document Error) : Nat := s.workers.countP Worker.isReading

theorem count_resume (hthrows : s.throws document blobs blob failure = none) :
    (s.resume document blobs index blob failure).2.isReading.toNat + s.next =
      (s.resume document blobs index blob failure).1.next := by
  cases failure with
  | some error => cases hthrows
  | none =>
    unfold Fetch.throws at hthrows
    unfold Fetch.resume
    dsimp only at hthrows ⊢
    cases hd : document blob with
    | error error =>
      rw [hd] at hthrows
      cases hthrows
    | ok d =>
      rw [hd] at hthrows
      dsimp only at hthrows ⊢
      unfold Fetch.turn
      dsimp only
      by_cases hnext : s.next < blobs.length
      · rw [if_pos hnext] at hthrows ⊢
        rw [hthrows]
        exact Nat.add_comm 1 s.next
      · rw [if_neg hnext]
        exact Nat.zero_add _

def Succeeds (document : File → Except Error Document) (blobs : List File) (s : Fetch Document Error)
    (e : FetchLabel Error) : Prop :=
  (∃ i, e = .resume i none) ∧ failureOf document blobs s e = none

theorem count_step (he : Succeeds document blobs s e) (hstep : s.step document blobs e = some t) :
    t.openReads + s.next + 1 = s.openReads + t.next := by
  obtain ⟨⟨i, rfl⟩, hfailure⟩ := he
  obtain ⟨before, after, index, blob, hworkers, hworker, hblob, rfl⟩ := step_resume hstep
  have hthrows : s.throws document blobs blob none = none := by
    simpa [failureOf, hworker, hblob] using hfailure
  have hcount := @count_resume _ _ _ document blobs s index blob none hthrows
  have hreading : (Worker.reading index).isReading = true := rfl
  unfold Fetch.openReads
  rw [hworkers, List.countP_append, List.countP_append, List.countP_cons, List.countP_cons, if_pos hreading]
  dsimp only
  cases hw : (s.resume document blobs index blob none).2.isReading with
  | true =>
    rw [hw, Bool.toNat_true] at hcount
    rw [if_pos rfl]
    omega
  | false =>
    rw [hw, Bool.toNat_false] at hcount
    rw [if_neg Bool.false_ne_true]
    omega

theorem count_run {k : Nat} (hs : s.openReads + k = s.next) (hrejected : s.rejected = none)
    (hes : Along (Fetch.step document blobs) (Succeeds document blobs) s es)
    (hrun : run (Fetch.step document blobs) s es = some t) :
    t.openReads + (k + es.length) = t.next ∧ t.rejected = none := by
  induction es generalizing s k with
  | nil =>
    cases hrun
    exact ⟨hs, hrejected⟩
  | cons e es ih =>
    obtain ⟨u, hstep, hrest⟩ := run_cons_eq_some.mp hrun
    have hcount := count_step hes.1 hstep
    have hu : u.openReads + (k + 1) = u.next := by omega
    obtain ⟨ht, htrejected⟩ := ih hu ((step_no_failure hes.1.2 hstep).1.trans hrejected) (hes.2 u hstep) hrest
    refine ⟨?_, htrejected⟩
    rw [List.length_cons]
    omega

theorem start_fresh : (Fetch.start blobs concurrency none : Fetch Document Error).openReads =
      (Fetch.start blobs concurrency none : Fetch Document Error).next ∧
    (Fetch.start blobs concurrency none : Fetch Document Error).rejected = none ∧
    (Fetch.start blobs concurrency none : Fetch Document Error).aborted = none := by
  unfold Fetch.start
  generalize min concurrency blobs.length = n
  induction n with
  | zero => exact ⟨rfl, rfl, rfl⟩
  | succ n ih =>
    rw [Function.iterate_succ_apply']
    generalize (Fetch.spawn blobs)^[n] _ = s at ih
    obtain ⟨hopen, hrejected, haborted⟩ := ih
    have hcount : s.workers.countP Worker.isReading = s.next := hopen
    unfold Fetch.openReads
    rw [Fetch.spawn, Fetch.turn]
    by_cases hnext : s.next < blobs.length
    · rw [if_pos hnext, haborted]
      refine ⟨?_, hrejected, rfl⟩
      dsimp only
      rw [List.countP_append, hcount]
      rfl
    · rw [if_neg hnext]
      refine ⟨?_, hrejected, haborted⟩
      dsimp only
      rw [List.countP_append, hcount]
      rfl

theorem start_aborted {reason : Error} (hblobs : blobs ≠ []) (hconcurrency : 1 ≤ concurrency) :
    (Fetch.start blobs concurrency (some reason) : Fetch Document Error).rejected = some reason ∧
      (Fetch.start blobs concurrency (some reason) : Fetch Document Error).reads = [] ∧
      (Fetch.start blobs concurrency (some reason) : Fetch Document Error).aborted = some reason := by
  have hlength := List.length_pos_iff.mpr hblobs
  have hspawn (s : Fetch Document Error) (hnext : s.next = 0) (haborted : s.aborted = some reason) :
      (s.spawn blobs).next = 0 ∧ (s.spawn blobs).aborted = some reason ∧ (s.spawn blobs).reads = s.reads ∧
        (s.spawn blobs).rejected = s.rejected.or (some reason) := by
    rw [Fetch.spawn, Fetch.turn, if_pos (hnext ▸ hlength), haborted]
    have hreason : s.aborted.or (some reason) = some reason := by rw [haborted]; rfl
    exact ⟨hnext, hreason, rfl, rfl⟩
  have hspawns (n : Nat) : ((Fetch.spawn blobs)^[n + 1] (Fetch.initial blobs (some reason) : Fetch Document Error)).next =
      0 ∧ ((Fetch.spawn blobs)^[n + 1] (Fetch.initial blobs (some reason) : Fetch Document Error)).aborted = some reason ∧
      ((Fetch.spawn blobs)^[n + 1] (Fetch.initial blobs (some reason) : Fetch Document Error)).reads = [] ∧
      ((Fetch.spawn blobs)^[n + 1] (Fetch.initial blobs (some reason) : Fetch Document Error)).rejected =
        some reason := by
    induction n with
    | zero => exact hspawn _ rfl rfl
    | succ n ih =>
      rw [Function.iterate_succ_apply']
      obtain ⟨hnext, haborted, hreads, hrejected⟩ := ih
      obtain ⟨hnext', haborted', hreads', hrejected'⟩ := hspawn _ hnext haborted
      exact ⟨hnext', haborted', hreads'.trans hreads, by rw [hrejected', hrejected]; rfl⟩
  obtain ⟨n, hn⟩ := Nat.exists_eq_add_of_le' (Nat.le_min.mpr ⟨hconcurrency, hlength⟩)
  obtain ⟨-, haborted, hreads, hrejected⟩ := hspawns n
  unfold Fetch.start
  rw [hn]
  exact ⟨hrejected, hreads, haborted⟩

theorem no_failure_run (hes : Along (Fetch.step document blobs) (fun s e => failureOf document blobs s e = none) s es)
    (hrun : run (Fetch.step document blobs) s es = some t) : t.rejected = s.rejected := by
  induction es generalizing s with
  | nil =>
    cases hrun
    rfl
  | cons e es ih =>
    obtain ⟨u, hstep, hrest⟩ := run_cons_eq_some.mp hrun
    rw [ih (hes.2 u hstep) hrest, (step_no_failure hes.1 hstep).1]

theorem outcome_of_rejected (h : t.rejected = some error) : t.outcome = .rejected error := by
  rw [Fetch.outcome, h]

theorem documents_of_resolved {documents : List (Option Document)} (hconcurrency : 1 ≤ concurrency)
    (hrun : run (Fetch.step document blobs) (Fetch.start blobs concurrency signal) es = some t)
    (houtcome : t.outcome = .resolved documents) : ∃ ds : List Document, documents = ds.map some ∧
      List.Forall₂ (fun blob d => document blob = .ok d) blobs ds := by
  rw [Fetch.outcome] at houtcome
  split at houtcome
  · cases houtcome
  · rename_i hrejected
    split at houtcome
    · rename_i hdone
      cases houtcome
      exact (inv_run hrun).resolved (length_run hrun) hconcurrency hrejected hdone
    · cases houtcome

theorem outcome_of_idle (h : t.Inv document blobs t.workers) (hrejected : t.rejected = none) (hidle : t.openReads = 0) :
    t.outcome = .resolved t.documents := by
  have hdone : t.workers.all (· = .done) = true := by
    rw [List.all_eq_true]
    intro worker hworker
    cases worker with
    | reading index => exact absurd rfl (List.countP_eq_zero.mp hidle _ hworker)
    | done => rfl
    | failed => exact absurd hrejected (h.failed hworker)
  rw [Fetch.outcome, hrejected]
  exact if_pos hdone

theorem reading_of_next_lt (h : t.Inv document blobs t.workers) (hrejected : t.rejected = none)
    (hworkers : 0 < t.workers.length) (hopen : t.openReads = 0 → t.next < blobs.length) :
    ∃ (i index : Nat), t.workers[i]? = some (Worker.reading index) := by
  by_cases hidle : t.openReads = 0
  · obtain ⟨worker, hworker⟩ := List.exists_mem_of_length_pos hworkers
    cases worker with
    | reading index => exact absurd rfl (List.countP_eq_zero.mp hidle _ hworker)
    | done => exact absurd (h.done hworker) (Nat.ne_of_lt (hopen hidle))
    | failed => exact absurd hrejected (h.failed hworker)
  · obtain ⟨worker, hworker, hreading⟩ := List.countP_pos_iff.mp (Nat.pos_of_ne_zero hidle)
    cases worker with
    | reading index =>
      obtain ⟨i, hi⟩ := List.getElem?_of_mem hworker
      exact ⟨i, index, hi⟩
    | done => cases hreading
    | failed => cases hreading

def readDocument (platform : Platform) (repository : Repository) (commit : Sha) (thrown : BlobRef → Error)
    (blob : BlobRef) : Except Error SourceDocument :=
  match parse platform blob.path.val (repository.text blob.sha) blob.sha.val commit.val repository.htmlUrl with
  | some d => .ok d
  | none => .error (thrown blob)

theorem fetch_of_forall₂ {platform : Platform} {repository : Repository} {commit : Sha} {thrown : BlobRef → Error}
    {files : List BlobRef} {ds : List SourceDocument}
    (h : List.Forall₂ (fun blob d => readDocument platform repository commit thrown blob = .ok d) files ds) :
    fetch platform repository commit files = some ds := by
  induction h with
  | nil => rfl
  | cons hd _ ih =>
    rw [fetch] at ih
    rw [fetch, List.mapM_cons, ih]
    unfold readDocument at hd
    split at hd
    · rename_i hparse
      cases hd
      rw [hparse]
      rfl
    · cases hd

theorem fetch_of_resolved {platform : Platform} {repository : Repository} {commit : Sha} {thrown : BlobRef → Error}
    {files : List BlobRef} {t : Fetch SourceDocument Error} {documents : List (Option SourceDocument)}
    (hconcurrency : 1 ≤ concurrency)
    (hrun : run (Fetch.step (readDocument platform repository commit thrown) files)
      (Fetch.start files concurrency signal) es = some t)
    (houtcome : t.outcome = .resolved documents) :
    (fetch platform repository commit files).map (·.map some) = some documents := by
  obtain ⟨ds, rfl, hds⟩ := documents_of_resolved hconcurrency hrun houtcome
  rw [fetch_of_forall₂ hds]
  rfl

theorem concurrentFetch (document : File → Except Error Document) (blobs : List File) (concurrency : Nat)
    (signal : Option Error) (es : List (FetchLabel Error)) (t : Fetch Document Error) (hconcurrency : 1 ≤ concurrency)
    (hrun : run (Fetch.step document blobs) (Fetch.start blobs concurrency signal) es = some t) :
    (t.reads.Nodup ∧ ∀ i ∈ t.reads, i < blobs.length) ∧
    (∀ documents, t.outcome = .resolved documents →
      ∃ ds : List Document, documents = ds.map some ∧ List.Forall₂ (fun blob d => document blob = .ok d) blobs ds) ∧
    (signal = none →
      Along (Fetch.step document blobs) (Succeeds document blobs) (Fetch.start blobs concurrency signal) es →
        es.length ≤ blobs.length ∧ (es.length = blobs.length → t.outcome = .resolved t.documents) ∧
          (es.length < blobs.length → ∃ (i index : Nat), t.workers[i]? = some (Worker.reading index))) ∧
    (∀ before e after s error, es = before ++ e :: after → signal = none →
      run (Fetch.step document blobs) (Fetch.start blobs concurrency signal) before = some s →
      Along (Fetch.step document blobs) (fun s e => failureOf document blobs s e = none)
        (Fetch.start blobs concurrency signal) before →
      failureOf document blobs s e = some error → t.outcome = .rejected error ∧ t.reads = s.reads) ∧
    (∀ reason, signal = some reason → blobs ≠ [] → t.outcome = .rejected reason ∧ t.reads = []) ∧
    (∀ (platform : Platform) (repository : Repository) (commit : Sha) (thrown : BlobRef → Error) (files : List BlobRef)
      (es : List (FetchLabel Error)) (t : Fetch SourceDocument Error) (documents : List (Option SourceDocument)),
      run (Fetch.step (readDocument platform repository commit thrown) files) (Fetch.start files concurrency signal) es =
        some t →
      t.outcome = .resolved documents → (fetch platform repository commit files).map (·.map some) = some documents) := by
  have hinv := inv_run hrun
  have hlength := length_run hrun
  refine ⟨⟨?_, ?_⟩, ?_, ?_, ?_, ?_, fun _ _ _ _ _ _ _ _ => fetch_of_resolved hconcurrency⟩
  · rw [hinv.reads]
    exact List.nodup_range
  · intro i hi
    rw [hinv.reads, List.mem_range] at hi
    exact Nat.lt_of_lt_of_le hi hinv.next_le
  · exact fun documents => documents_of_resolved hconcurrency hrun
  · rintro rfl hes
    obtain ⟨hopen, hrejected, -⟩ := @start_fresh _ Document Error blobs concurrency
    obtain ⟨hcount, htrejected⟩ := count_run (k := 0) hopen hrejected hes hrun
    rw [Nat.zero_add] at hcount
    have hle := hinv.next_le
    refine ⟨by omega, fun hall => ?_, fun hsome => ?_⟩
    · have hnone : t.openReads = 0 := by omega
      exact outcome_of_idle hinv htrejected hnone
    · refine reading_of_next_lt hinv htrejected ?_ (by omega)
      rw [hlength]
      omega
  · rintro before e after s error rfl rfl hbefore hes hfailure
    obtain ⟨s', hs', hrest⟩ := run_append_eq_some.mp hrun
    obtain rfl : s = s' := Option.some.inj (hbefore.symm.trans hs')
    obtain ⟨u, hstep, hafter⟩ := run_cons_eq_some.mp hrest
    have hrejected : s.rejected = none := (no_failure_run hes hbefore).trans start_fresh.2.1
    obtain ⟨hu, haborted, hreads⟩ := step_failure hfailure hstep
    rw [hrejected, Option.none_or] at hu
    obtain ⟨ht, htreads⟩ := run_of_rejected hu (by rw [haborted]; cases s.aborted <;> simp) hafter
    exact ⟨outcome_of_rejected ht, htreads.trans hreads⟩
  · rintro reason rfl hblobs
    obtain ⟨hrejected, hreads, haborted⟩ :=
      @start_aborted _ Document _ blobs concurrency reason hblobs hconcurrency
    obtain ⟨ht, htreads⟩ := run_of_rejected hrejected (by rw [haborted]; simp) hrun
    exact ⟨outcome_of_rejected ht, htreads.trans hreads⟩

theorem concurrentFetch_failure : ∃ t : Fetch Nat String,
    run (Fetch.step (fun file : Nat => Except.ok file) [10, 20, 30]) (Fetch.start [10, 20, 30] 2 none)
      [.resume 0 none, .resume 1 (some "gone"), .resume 0 none] = some t ∧
      t.outcome = .rejected "gone" ∧ t.reads = [0, 1, 2] := by
  refine ⟨_, rfl, ?_⟩
  exact (concurrentFetch (fun file : Nat => Except.ok file) [10, 20, 30] 2 none _ _ (by decide) rfl).2.2.2.1
    [.resume 0 none] (.resume 1 (some "gone")) [.resume 0 none] _ "gone" rfl rfl rfl
    (.cons rfl rfl trivial) rfl

end HomelabApps.KnowledgeBase.Git
