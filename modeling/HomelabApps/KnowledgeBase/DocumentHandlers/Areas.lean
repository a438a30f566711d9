import HomelabApps.KnowledgeBase.DocumentHandlers
import HomelabApps.KnowledgeBase.NoteRenderService.ReadsBack
import HomelabApps.KnowledgeBase.SearchService.Coverage
import HomelabApps.Library.Lists

namespace HomelabApps.KnowledgeBase.DocumentHandlers

open HomelabApps.Library
open HomelabApps.Library.Utf16
open HomelabApps.Library.Utf8 (textOf utf16_textOf wellFormed_of_units not_surrogate_iff)
open DocumentValidation
open DocumentWrite (Base Call Command Commit Entry SourceFile held)
open KnowledgeBaseAccess (ReadableConfig readable)
open Markdown (HYPHEN)
open Notes (NotesPostRequest RenderedNote isCalendarDate isNoteId isPlainUnit_of_isDigit isPlainUnit_of_isKebab)
open SearchService (bind_eq_ok)

variable {service : Service} {base : Base} {s t : State} {events earlier : List Event} {event : Event} {caller : Caller}
  {call : Call} {id name date content what kb : JsString} {supersedes : Option JsString} {commits : List Commit}

theorem checked_eq_ok {α : Type} {result : Checked α} {a : α} (h : checked result = .ok a) : result = .ok a := by
  cases result with
  | error message => cases h
  | ok b =>
    cases h
    rfl

theorem scan_of_refuseSecrets {kindOf : KindOf} (h : refuseSecrets kindOf content what = .ok ()) :
    scan kindOf content = none := by
  unfold refuseSecrets at h
  split at h
  · assumption
  · cases h

theorem not_surrogate_of_plain {u : UInt16} (h : Yaml.isPlainUnit u = true) : isSurrogate u = false := by
  rw [Yaml.isPlainUnit, Bool.or_eq_true] at h
  cases h with
  | inl h =>
    rw [not_surrogate_iff]
    left
    simp only [Yaml.isAlphanumeric, Yaml.isDigit, Yaml.isLower, Bool.or_eq_true, Bool.and_eq_true, decide_eq_true_eq,
      UInt16.le_iff_toNat_le, UInt16.reduceToNat] at h
    omega
  | inr h =>
    have hascii : (utf16 "._-@+/").all (fun v => !isSurrogate v) = true := by decide
    have hu := List.all_eq_true.mp hascii u (List.contains_iff_mem.mp h)
    rwa [Bool.not_eq_true'] at hu

theorem utf16_of_plain (h : ∀ u ∈ id, Yaml.isPlainUnit u = true) : utf16 (textOf id) = id :=
  utf16_textOf (wellFormed_of_units fun u hu => not_surrogate_of_plain (h u hu))

theorem plain_of_isNoteId (h : isNoteId id = true) : ∀ u ∈ id, Yaml.isPlainUnit u = true := by
  have hplain := (Notes.isPlain_of_isNoteId h).1
  cases id with
  | nil => exact List.forall_mem_nil _
  | cons u id =>
    rw [Yaml.isPlain, Bool.and_eq_true] at hplain
    exact List.forall_mem_cons.mpr ⟨Yaml.isPlainUnit_of_isAlphanumeric hplain.1, List.all_eq_true.mp hplain.2⟩

theorem plain_of_dateParts (h : (Store.dateParts? date).isSome) : ∀ u ∈ date, Yaml.isPlainUnit u = true := by
  obtain ⟨parts, hparts⟩ := Option.isSome_iff_exists.mp h
  unfold Store.dateParts? at hparts
  split at hparts
  · obtain ⟨_, hyear, hparts⟩ := Option.bind_eq_some_iff.mp hparts
    obtain ⟨_, hmonth, hparts⟩ := Option.bind_eq_some_iff.mp hparts
    obtain ⟨_, hday, -⟩ := Option.bind_eq_some_iff.mp hparts
    have hyear := Notes.isDigit_of_digits hyear
    have hmonth := Notes.isDigit_of_digits hmonth
    have hday := Notes.isDigit_of_digits hday
    have hdash : Yaml.isPlainUnit 0x2D = true := by decide
    simp only [List.forall_mem_cons] at hyear hmonth hday ⊢
    exact ⟨isPlainUnit_of_isDigit hyear.1, isPlainUnit_of_isDigit hyear.2.1, isPlainUnit_of_isDigit hyear.2.2.1,
      isPlainUnit_of_isDigit hyear.2.2.2.1, hdash, isPlainUnit_of_isDigit hmonth.1, isPlainUnit_of_isDigit hmonth.2.1,
      hdash, isPlainUnit_of_isDigit hday.1, isPlainUnit_of_isDigit hday.2.1, List.forall_mem_nil _⟩
  · cases hparts

theorem workDate_parts (h : workDate id = some date) : ∃ slug, ∃ file ∈ WORK_FILES,
    id = WORK_AREA ++ date ++ HYPHEN :: slug ++ file ∧ Notes.isKebab true slug = true ∧
      (Store.dateParts? date).isSome := by
  obtain ⟨file, hfile, hdate⟩ := List.exists_of_findSome?_eq_some h
  unfold workDateWith at hdate
  dsimp only at hdate
  split at hdate
  · rename_i hparts
    rw [Bool.and_eq_true, Bool.and_eq_true, decide_eq_true_eq] at hparts
    cases hdate
    exact ⟨_, file, hfile, hparts.1.1, hparts.1.2, hparts.2⟩
  · cases hdate

theorem plain_of_workDate (h : workDate id = some date) : ∀ u ∈ id, Yaml.isPlainUnit u = true := by
  obtain ⟨slug, file, hfile, rfl, hslug, hdate⟩ := workDate_parts h
  have harea : WORK_AREA.all Yaml.isPlainUnit = true := by decide
  have hfiles : (WORK_FILES.all fun file => file.all Yaml.isPlainUnit) = true := by decide
  have hfile := List.all_eq_true.mp (List.all_eq_true.mp hfiles file hfile)
  rw [List.forall_mem_append, List.forall_mem_append, List.forall_mem_append, List.forall_mem_cons]
  exact ⟨⟨⟨List.all_eq_true.mp harea, plain_of_dateParts hdate⟩, by decide, isPlainUnit_of_isKebab hslug⟩, hfile⟩

theorem workDate_of_isNoteId (h : isNoteId id = true) : workDate id = none := by
  cases hwork : workDate id with
  | none => rfl
  | some date =>
    obtain ⟨slug, file, -, hid, -⟩ := workDate_parts hwork
    rw [isNoteId, Bool.and_eq_true, Bool.and_eq_true, decide_eq_true_eq] at h
    have heq := hid.symm.trans h.1.1
    cases heq

theorem isNoteId_render {request : NotesPostRequest} {today author : JsString} {note : RenderedNote}
    (h : Notes.render service.titles today request author = .ok note) : isNoteId note.id = true := by
  obtain ⟨haccepted, hid, -⟩ := Notes.render_ok h
  rw [hid]
  exact Notes.isNoteId_of_parts haccepted.date (Notes.isKebab_slug haccepted.slug)

theorem workDate_of_writablePath (h : writablePath id = .ok ()) : (workDate id).any isCalendarDate = true := by
  unfold writablePath at h
  split at h
  · cases h
  · split at h
    · cases h
    · split at h
      · assumption
      · cases h

theorem admitted_of_deletablePath (h : deletablePath id = .ok ()) :
    isNoteId id = true ∨ (workDate id).isSome = true := by
  unfold deletablePath at h
  split at h
  · cases h
  · split at h
    · rename_i hid
      exact Bool.or_eq_true_iff.mp hid
    · cases h

inductive Asked (service : Service) (events : List Event) : Call → Option String → Prop
  | put (caller : Caller) (request : DocumentsPutRequest) (kb : ReadableConfig) (title : JsString) (message : String) :
    .put caller request ∈ events → kb ∈ readable caller.principal.roles service.knowledgeBases →
    workDocument service.parseYaml service.kindOf request.id request.content = .ok title →
    Asked service events
      ⟨writable kb, textOf request.id, .write (textOf request.content) request.version, message⟩ none
  | delete (caller : Caller) (request : DocumentsDeleteRequest) (kb : ReadableConfig) (message : String) :
    .delete caller request ∈ events → kb ∈ readable caller.principal.roles service.knowledgeBases →
    deletablePath request.id = .ok () →
    Asked service events ⟨writable kb, textOf request.id, .delete request.version, message⟩ none
  | post (caller : Caller) (name : JsString) (request : NotesPostRequest) (today onBehalfOf : JsString)
      (kb : ReadableConfig) (note : RenderedNote) (message : String) :
    .post caller name request today ∈ events → kb ∈ readable caller.principal.roles service.knowledgeBases →
    author caller = .ok onBehalfOf → Notes.render service.titles today request onBehalfOf = .ok note →
    scan service.kindOf note.content = none →
    Asked service events ⟨writable kb, textOf note.id, .write (textOf note.content) none, message⟩
      (request.supersedes.map textOf)

theorem Asked.mono {note : Option String} (hsub : earlier ⊆ events) (h : Asked service earlier call note) :
    Asked service events call note := by
  cases h with
  | put caller request kb title message hevent hkb htitle =>
    exact .put caller request kb title message (hsub hevent) hkb htitle
  | delete caller request kb message hevent hkb hpath =>
    exact .delete caller request kb message (hsub hevent) hkb hpath
  | post caller name request today onBehalfOf kb note message hevent hkb hauthor hnote hscan =>
    exact .post caller name request today onBehalfOf kb note message (hsub hevent) hkb hauthor hnote hscan

theorem readable_of_knowledgeBase {found : ReadableConfig} (h : knowledgeBase service caller kb = .ok found) :
    found ∈ readable caller.principal.roles service.knowledgeBases := by
  unfold knowledgeBase at h
  split at h
  · cases h
  · cases h
  · rename_i hresolved
    cases h
    exact KnowledgeBaseAccess.resolve_subset hresolved (List.mem_cons_self ..)

theorem asked_put {request : DocumentsPutRequest} (hevent : .put caller request ∈ events)
    (h : put service caller request = .ok call) : Asked service events call none := by
  unfold put at h
  obtain ⟨_, -, h⟩ := bind_eq_ok.mp h
  obtain ⟨found, hkb, h⟩ := bind_eq_ok.mp h
  obtain ⟨title, htitle, h⟩ := bind_eq_ok.mp h
  obtain ⟨_, -, h⟩ := bind_eq_ok.mp h
  cases h
  exact .put caller request found title _ hevent (readable_of_knowledgeBase hkb) (checked_eq_ok htitle)

theorem asked_delete {request : DocumentsDeleteRequest} (hevent : .delete caller request ∈ events)
    (h : delete service caller request = .ok call) : Asked service events call none := by
  unfold delete at h
  obtain ⟨_, -, h⟩ := bind_eq_ok.mp h
  obtain ⟨found, hkb, h⟩ := bind_eq_ok.mp h
  obtain ⟨_, hpath, h⟩ := bind_eq_ok.mp h
  obtain ⟨_, -, h⟩ := bind_eq_ok.mp h
  cases h
  exact .delete caller request found _ hevent (readable_of_knowledgeBase hkb) (checked_eq_ok hpath)

theorem asked_post {request : NotesPostRequest} {today : JsString} (hevent : .post caller name request today ∈ events)
    (h : post service caller name request today = .ok call) :
    Asked service events call (request.supersedes.map textOf) := by
  unfold post at h
  obtain ⟨onBehalfOf, hauthor, h⟩ := bind_eq_ok.mp h
  obtain ⟨found, hkb, h⟩ := bind_eq_ok.mp h
  obtain ⟨note, hnote, h⟩ := bind_eq_ok.mp h
  obtain ⟨_, hscan, h⟩ := bind_eq_ok.mp h
  cases h
  exact .post caller name request today onBehalfOf found note _ hevent (readable_of_knowledgeBase hkb)
    (checked_eq_ok hauthor) (checked_eq_ok hnote) (scan_of_refuseSecrets (checked_eq_ok hscan))

def Existed (base : Base) (commits : List Commit) (kb id : String) : Prop :=
  ∃ moment ≤ commits.length, (held base (commits.take moment) kb id).isSome = true

theorem Existed.append {kb id : String} {c : Commit} (h : Existed base commits kb id) :
    Existed base (commits ++ [c]) kb id := by
  obtain ⟨moment, hle, hheld⟩ := h
  refine ⟨moment, ?_, ?_⟩
  · rw [List.length_append]
    exact Nat.le_add_right_of_le hle
  · rw [DocumentWrite.take_append_of_le hle]
    exact hheld

def Due (service : Service) (base : Base) (events : List Event) (commits : List Commit) (call : Call) : Prop :=
  ∃ note, Asked service events call note ∧ ∀ id ∈ note, Existed base commits call.kb.id id

theorem Due.append {c : Commit} (h : Due service base events commits call) :
    Due service base events (commits ++ [c]) call := by
  obtain ⟨note, hasked, hnote⟩ := h
  exact ⟨note, hasked, fun id hid => (hnote id hid).append⟩

theorem Due.mono (hsub : earlier ⊆ events) (h : Due service base earlier commits call) :
    Due service base events commits call := by
  obtain ⟨note, hasked, hnote⟩ := h
  exact ⟨note, hasked.mono hsub, hnote⟩

def Explained (service : Service) (base : Base) (events : List Event) (before : List Commit) (c : Commit) : Prop :=
  ∃ call version, Due service base events before call ∧ c.kb = call.kb.id ∧ c.id = call.id ∧
    c.file = call.command.file version ∧ (held base before c.kb c.id).map (·.version) = call.command.version

theorem Explained.mono {c : Commit} (hsub : earlier ⊆ events) (h : Explained service base earlier commits c) :
    Explained service base events commits c := by
  obtain ⟨call, version, hdue, h⟩ := h
  exact ⟨call, version, hdue.mono hsub, h⟩

def Pending.Sound (service : Service) (base : Base) (events : List Event) (commits : List Commit) (p : Pending) :
    Prop :=
  Asked service events p.call (some p.supersedes) ∧
    ∀ file, p.read = some (some file) → Existed base commits p.call.kb.id p.supersedes

structure Writes (service : Service) (base : Base) (events : List Event) (writes : DocumentWrite.State) : Prop where
  calls : ∀ (i : Nat) (e : Entry), writes.calls[i]? = some e → Due service base events writes.commits e.call
  commits : ∀ (m : Nat) (c : Commit) (i : Nat), writes.commits[m]? = some c → c.author = some i →
    Explained service base events (writes.commits.take m) c

structure Sound (service : Service) (base : Base) (events : List Event) (s : State) : Prop where
  writes : Writes service base events s.writes
  pending : ∀ p ∈ s.pending, p.Sound service base events s.writes.commits

variable {writes writes' : DocumentWrite.State} {move : DocumentWrite.Event}

theorem Writes.mono (hsub : earlier ⊆ events) (h : Writes service base earlier writes) :
    Writes service base events writes where
  calls i e he := (h.calls i e he).mono hsub
  commits m c i hc hi := (h.commits m c i hc hi).mono hsub

theorem Pending.Sound.mono {p : Pending} (hsub : earlier ⊆ events) (h : p.Sound service base earlier commits) :
    p.Sound service base events commits :=
  ⟨h.1.mono hsub, h.2⟩

theorem Sound.mono (hsub : earlier ⊆ events) (h : Sound service base earlier s) : Sound service base events s where
  writes := h.writes.mono hsub
  pending p hp := (h.pending p hp).mono hsub

theorem explained_append {c : Commit} (h : Writes service base events writes)
    (hnew : ∀ i, c.author = some i → Explained service base events writes.commits c) (m : Nat) (d : Commit) (i : Nat)
    (hd : (writes.commits ++ [c])[m]? = some d) (hi : d.author = some i) :
    Explained service base events ((writes.commits ++ [c]).take m) d := by
  rcases getElem?_concat_cases hd with hd | ⟨rfl, rfl⟩
  · rw [DocumentWrite.take_append_of_le (Nat.le_of_lt (List.getElem?_eq_some_iff.mp hd).1)]
    exact h.commits m d i hd hi
  · rw [List.take_left]
    exact hnew i hi

theorem due_set {e : Entry} {i j : Nat} (e' : Entry) (h : Writes service base events writes)
    (he : writes.calls[i]? = some e) (hcall : e'.call = e.call) {a : Entry}
    (ha : (writes.calls.set i e')[j]? = some a) :
    Due service base events writes.commits a.call := by
  rcases getElem?_set_cases ha with ⟨rfl, rfl⟩ | ⟨-, ha⟩
  · rw [hcall]
    exact h.calls j e he
  · exact h.calls j a ha

theorem Writes.step (h : Writes service base events writes)
    (hdue : ∀ call, move = .arrive call → Due service base events writes.commits call)
    (hstep : DocumentWrite.step base writes move = some writes') : Writes service base events writes' := by
  cases DocumentWrite.step_cases hstep with
  | throw => exact ⟨h.calls, h.commits⟩
  | arrive call =>
    refine ⟨fun i e he => ?_, h.commits⟩
    rcases getElem?_concat_cases he with he | ⟨-, rfl⟩
    · exact h.calls i e he
    · exact hdue call rfl
  | move ev i e e' he hmove => exact ⟨fun j a ha => due_set e' h he (DocumentWrite.move_call hmove) ha, h.commits⟩
  | land i e version commit he hlast hversion =>
    refine ⟨fun j a ha => (due_set (e.answer _) h he rfl ha).append, explained_append h fun _ _ => ?_⟩
    exact ⟨e.call, version, h.calls i e he, rfl, rfl, rfl, hversion⟩
  | succeed i e attempt m result he => exact ⟨fun j a ha => due_set (e.settle _) h he rfl ha, h.commits⟩
  | foreign kb id file =>
    refine ⟨fun j a ha => (h.calls j a ha).append, explained_append h fun i hi => ?_⟩
    cases hi

theorem commits_step (hstep : DocumentWrite.step base writes move = some writes') :
    writes'.commits = writes.commits ∨ ∃ c, writes'.commits = writes.commits ++ [c] := by
  cases DocumentWrite.step_cases hstep with
  | land => exact .inr ⟨_, rfl⟩
  | foreign => exact .inr ⟨_, rfl⟩
  | _ => exact .inl rfl

theorem Pending.Sound.step {p : Pending} (h : p.Sound service base events writes.commits)
    (hstep : DocumentWrite.step base writes move = some writes') : p.Sound service base events writes'.commits := by
  refine ⟨h.1, fun file hfile => ?_⟩
  rcases commits_step hstep with heq | ⟨c, heq⟩
  · rw [heq]
    exact h.2 file hfile
  · rw [heq]
    exact (h.2 file hfile).append

theorem Sound.advance (h : Sound service base events s)
    (hdue : ∀ call, move = .arrive call → Due service base events s.writes.commits call)
    (hstep : s.advance base move = some t) : Sound service base events t := by
  obtain ⟨writes', hwrites, rfl⟩ := Option.map_eq_some_iff.mp hstep
  exact ⟨h.writes.step hdue hwrites, fun p hp => (h.pending p hp).step hwrites⟩

theorem Sound.refuse (h : Sound service base events s) (refusal : Refusal) :
    Sound service base events (s.refuse refusal) :=
  ⟨h.writes, h.pending⟩

theorem Sound.submit {result : Except Refusal Call} (h : Sound service base events s)
    (hasked : ∀ call, result = .ok call → Asked service events call none)
    (hstep : s.submit base result = some t) : Sound service base events t := by
  cases result with
  | error refusal =>
    cases hstep
    exact h.refuse refusal
  | ok call =>
    refine h.advance (fun arrived harrived => ?_) hstep
    cases harrived
    exact ⟨none, hasked call rfl, fun id hid => by cases hid⟩

theorem Sound.take {i : Nat} (h : Sound service base events s) : Sound service base events (s.take i) where
  writes := h.writes
  pending p hp := h.pending p (List.mem_of_mem_eraseIdx hp)

inductive Step (service : Service) (base : Base) (s : State) : Event → State → Prop
  | put (caller : Caller) (request : DocumentsPutRequest) (t : State) :
    s.submit base (put service caller request) = some t → Step service base s (.put caller request) t
  | delete (caller : Caller) (request : DocumentsDeleteRequest) (t : State) :
    s.submit base (delete service caller request) = some t → Step service base s (.delete caller request) t
  | post (caller : Caller) (name : JsString) (request : NotesPostRequest) (today : JsString) (t : State) :
    (∀ supersedes call, request.supersedes = some supersedes → post service caller name request today ≠ .ok call) →
    s.submit base (post service caller name request today) = some t →
    Step service base s (.post caller name request today) t
  | wait (caller : Caller) (name : JsString) (request : NotesPostRequest) (today supersedes : JsString) (call : Call) :
    request.supersedes = some supersedes → post service caller name request today = .ok call →
    Step service base s (.post caller name request today)
      { s with pending := s.pending ++ [{ call, supersedes := textOf supersedes }] }
  | read (i : Nat) (call : Call) (supersedes : String) : s.pending[i]? = some ⟨call, supersedes, none⟩ →
    Step service base s (.read i)
      { s with
        pending := s.pending.set i ⟨call, supersedes, some (held base s.writes.commits call.kb.id supersedes)⟩ }
  | readFails (i : Nat) : Step service base s (.readFails i) (s.take i)
  | resume (i : Nat) (call : Call) (supersedes : String) (file : SourceFile) (t : State) :
    s.pending[i]? = some ⟨call, supersedes, some (some file)⟩ → (s.take i).advance base (.arrive call) = some t →
    Step service base s (.resume i) t
  | missing (i : Nat) (supersedes : String) :
    Step service base s (.resume i) ((s.take i).refuse (notSuperseded supersedes))
  | source (move : DocumentWrite.Event) (t : State) : (∀ call, move ≠ .arrive call) →
    s.advance base move = some t → Step service base s (.source move) t

theorem step_cases (h : step service base s event = some t) : Step service base s event t := by
  cases event with
  | put caller request => exact .put caller request t h
  | delete caller request => exact .delete caller request t h
  | post caller name request today =>
    simp only [step] at h
    split at h
    · rename_i supersedes call hsupersedes hcall
      cases h
      exact .wait caller name request today supersedes call hsupersedes hcall
    · rename_i hother
      exact .post caller name request today t (fun supersedes call hsupersedes => hother supersedes call hsupersedes) h
  | read i =>
    simp only [step] at h
    split at h
    · rename_i call supersedes hwaiting
      cases h
      exact .read i call supersedes hwaiting
    · cases h
  | readFails i =>
    simp only [step] at h
    split at h
    · cases h
      exact .readFails i
    · cases h
  | resume i =>
    simp only [step] at h
    split at h
    · rename_i call supersedes file hwaiting
      exact .resume i call supersedes file t hwaiting h
    · rename_i supersedes _
      cases h
      exact .missing i supersedes
    · cases h
  | source move =>
    cases move with
    | arrive call => cases h
    | _ => exact .source _ t (fun call heq => by cases heq) h

theorem Sound.wait {p : Pending} (h : Sound service base events s)
    (hp : p.Sound service base events s.writes.commits) :
    Sound service base events { s with pending := s.pending ++ [p] } where
  writes := h.writes
  pending q hq := by
    rcases List.mem_append.mp hq with hq | hq
    · exact h.pending q hq
    · rw [List.mem_singleton.mp hq]
      exact hp

theorem Sound.answer (h : Sound service base events s) (i : Nat) (p : Pending)
    (hp : p.Sound service base events s.writes.commits) :
    Sound service base events { s with pending := s.pending.set i p } where
  writes := h.writes
  pending q hq := by
    rcases List.mem_or_eq_of_mem_set hq with hq | rfl
    · exact h.pending q hq
    · exact hp

theorem Sound.step (h : Sound service base events s) (hevent : event ∈ events)
    (hstep : step service base s event = some t) : Sound service base events t := by
  cases step_cases hstep with
  | put caller request t hsubmit => exact h.submit (fun call hcall => asked_put hevent hcall) hsubmit
  | delete caller request t hsubmit => exact h.submit (fun call hcall => asked_delete hevent hcall) hsubmit
  | post caller name request today t hother hsubmit =>
    refine h.submit (fun call hcall => ?_) hsubmit
    have hasked := asked_post hevent hcall
    cases hsupersedes : request.supersedes with
    | none =>
      rw [hsupersedes] at hasked
      exact hasked
    | some supersedes => exact absurd hcall (hother supersedes call hsupersedes)
  | wait caller name request today supersedes call hsupersedes hcall =>
    have hasked := asked_post hevent hcall
    rw [hsupersedes] at hasked
    exact h.wait ⟨hasked, fun file hfile => by cases hfile⟩
  | read i call supersedes hwaiting =>
    have hasked := (h.pending _ (List.mem_of_getElem? hwaiting)).1
    refine h.answer i ⟨call, supersedes, some _⟩ ⟨hasked, fun file hfile => ?_⟩
    refine ⟨s.writes.commits.length, Nat.le_refl _, ?_⟩
    rw [List.take_length, Option.some.inj hfile]
    rfl
  | readFails i => exact h.take
  | resume i call supersedes file t hwaiting hadvance =>
    obtain ⟨hasked, hread⟩ := h.pending _ (List.mem_of_getElem? hwaiting)
    refine h.take.advance (fun arrived harrived => ?_) hadvance
    cases harrived
    refine ⟨some supersedes, hasked, fun id hid => ?_⟩
    cases hid
    exact hread file rfl
  | missing i supersedes => exact h.take.refuse _
  | source move t hother hadvance => exact h.advance (fun call hcall => absurd hcall (hother call)) hadvance

theorem Sound.run (h : Sound service base earlier s) (hrun : run service base s events = some t) :
    Sound service base (earlier ++ events) t := by
  induction events generalizing s earlier with
  | nil =>
    cases hrun
    rw [List.append_nil]
    exact h
  | cons event events ih =>
    obtain ⟨m, hm, hrun⟩ := Transition.run_cons_eq_some.mp hrun
    have hlast : event ∈ earlier ++ [event] := List.mem_append_right _ (List.mem_singleton_self _)
    rw [List.append_cons]
    exact ih ((h.mono (List.subset_append_left earlier [event])).step hlast hm) hrun

theorem Asked.area {note : Option String} (h : Asked service events call note) :
    isNoteId (utf16 call.id) = true ∧ (call.command.version = none ∨ ∀ version, call.command.file version = none) ∨
      (workDate (utf16 call.id)).isSome = true := by
  cases h with
  | put caller request kb title message hevent hkb htitle =>
    right
    unfold workDocument at htitle
    obtain ⟨_, hpath, -⟩ := bind_eq_ok.mp htitle
    have hany := workDate_of_writablePath hpath
    cases hdate : workDate request.id with
    | none =>
      rw [hdate] at hany
      cases hany
    | some date =>
      rw [utf16_of_plain (plain_of_workDate hdate), hdate]
      rfl
  | delete caller request kb message hevent hkb hpath =>
    rcases admitted_of_deletablePath hpath with hnote | hwork
    · left
      rw [utf16_of_plain (plain_of_isNoteId hnote)]
      exact ⟨hnote, .inr fun _ => rfl⟩
    · right
      obtain ⟨date, hdate⟩ := Option.isSome_iff_exists.mp hwork
      rw [utf16_of_plain (plain_of_workDate hdate)]
      exact hwork
  | post caller name request today onBehalfOf kb note message hevent hkb hauthor hnote hscan =>
    have hid := isNoteId_render hnote
    left
    rw [utf16_of_plain (plain_of_isNoteId hid)]
    exact ⟨hid, .inl rfl⟩

theorem Explained.appends {c : Commit} (h : Explained service base events commits c)
    (hid : isNoteId (utf16 c.id) = true) : held base commits c.kb c.id = none ∨ c.file = none := by
  obtain ⟨call, version, ⟨note, hasked, -⟩, -, hcall, hfile, hversion⟩ := h
  rcases hasked.area with ⟨-, hnew | hdeleted⟩ | hwork
  · left
    rw [hnew] at hversion
    exact Option.map_eq_none_iff.mp hversion
  · right
    rw [hfile]
    exact hdeleted version
  · rw [← hcall, workDate_of_isNoteId hid] at hwork
    cases hwork

theorem held_concat (commits : List Commit) (c : Commit) (kb id : String) :
    held base (commits ++ [c]) kb id = if c.kb = kb ∧ c.id = id then c.file else held base commits kb id := by
  rw [held, List.foldl_append]
  rfl

structure Areas (service : Service) (base : Base) (events : List Event) (commits : List Commit) : Prop where
  explained : ∀ (m : Nat) (c : Commit) (i : Nat), commits[m]? = some c → c.author = some i →
    Explained service base events (commits.take m) c
  admitted : ∀ c ∈ commits, c.author ≠ none → isNoteId (utf16 c.id) = true ∨ (workDate (utf16 c.id)).isSome = true
  appendOnly : ∀ (m n : Nat) (kb id : String) (file : SourceFile), isNoteId (utf16 id) = true → m ≤ n →
    held base (commits.take m) kb id = some file →
    (∀ k c, m ≤ k → k < n → commits[k]? = some c → c.kb = kb → c.id = id → c.author ≠ none ∧ c.file ≠ none) →
    held base (commits.take n) kb id = some file

theorem Explained.area {c : Commit} (h : Explained service base events commits c) :
    isNoteId (utf16 c.id) = true ∨ (workDate (utf16 c.id)).isSome = true := by
  obtain ⟨call, version, ⟨note, hasked, -⟩, -, hcall, -⟩ := h
  rw [hcall]
  exact hasked.area.imp_left And.left

theorem held_stays {m n : Nat} {kb id : String} {file : SourceFile}
    (h : ∀ (m : Nat) (c : Commit) (i : Nat), commits[m]? = some c → c.author = some i →
      Explained service base events (commits.take m) c)
    (hid : isNoteId (utf16 id) = true) (hmn : m ≤ n) (hheld : held base (commits.take m) kb id = some file)
    (hown : ∀ k c, m ≤ k → k < n → commits[k]? = some c → c.kb = kb → c.id = id → c.author ≠ none ∧ c.file ≠ none) :
    held base (commits.take n) kb id = some file := by
  induction n, hmn using Nat.le_induction with
  | base => exact hheld
  | succ n hmn ih =>
    have hbefore := ih fun k c hmk hkn => hown k c hmk (Nat.lt_succ_of_lt hkn)
    rw [List.take_add_one]
    cases hc : commits[n]? with
    | none =>
      rw [Option.toList_none, List.append_nil]
      exact hbefore
    | some c =>
      rw [Option.toList_some, held_concat]
      split
      · rename_i hsame
        obtain ⟨rfl, rfl⟩ := hsame
        obtain ⟨hauthor, hfile⟩ := hown n c hmn (Nat.lt_succ_self n) hc rfl rfl
        obtain ⟨i, hi⟩ := Option.ne_none_iff_exists'.mp hauthor
        -- where the note is held, a commit of the pod can only delete it
        rcases (h n c i hc hi).appends hid with hnone | hdeleted
        · rw [hbefore] at hnone
          cases hnone
        · exact absurd hdeleted hfile
      · exact hbefore

theorem areas_kept (service : Service) (base : Base) (events : List Event) (s : State)
    (hrun : run service base {} events = some s) : Areas service base events s.writes.commits := by
  have hinit : Sound service base [] {} :=
    ⟨⟨fun _ _ he => (by cases he), fun _ _ _ hc => (by cases hc)⟩, List.forall_mem_nil _⟩
  have hexplained := (hinit.run hrun).writes.commits
  refine ⟨hexplained, fun c hc hauthor => ?_, fun m n kb id file hid hmn hheld hown => ?_⟩
  · obtain ⟨m, hm⟩ := List.mem_iff_getElem?.mp hc
    obtain ⟨i, hi⟩ := Option.ne_none_iff_exists'.mp hauthor
    exact (hexplained m c i hm hi).area
  · exact held_stays hexplained hid hmn hheld hown

def pod : Service where
  knowledgeBases := [⟨⟨"notes", "english", ["m"], .shortest, ⟨[[]], []⟩⟩, [utf16 "reader"]⟩]
  parseYaml := Yaml.readHeader
  titles := Notes.asciiTitles
  kindOf _ := none

def someone : Caller where
  principal := ⟨utf16 "bot", .service, none, [utf16 "reader"], utf16 "idp"⟩
  header := some (utf16 "akadmin")

def oneNote : Base := fun kb id =>
  if kb = "notes" ∧ id = "raw/2026-09-06-old.md" then some ⟨"# Old", "v0"⟩ else none

def oneModel : DocumentsPutRequest where
  kb := utf16 "notes"
  id := utf16 "work/2026-10-26-one-model/spec.md"
  content := utf16 "---\nstatus: draft\nrepos: []\ncreated: 2026-10-26\n---\n\n# One model\n"
  version := none
  message := none

def stale : DocumentsDeleteRequest where
  kb := utf16 "notes"
  id := utf16 "raw/2026-09-06-old.md"
  version := "v0"
  reason := utf16 "stale"

def podEvents : List Event :=
  [.post someone (utf16 "notes") (Notes.gotcha "homelab-apps") (utf16 "2026-10-27"), .read 0, .put someone oneModel,
    .resume 0, .delete someone stale, .source (.start 0), .source (.land 0 "v1" "c1"), .source (.receive 0),
    .source (.start 1), .source (.land 1 "v2" "c2"), .source (.receive 1), .source (.start 2),
    .source (.land 2 "v3" "c3")]

theorem areas_kept_overtaken : ∃ s, run pod oneNote {} podEvents = some s ∧
    s.writes.commits.map (fun c => (c.id, c.file.isSome)) =
      [("work/2026-10-26-one-model/spec.md", true), ("raw/2026-10-26-one-model.md", true),
        ("raw/2026-09-06-old.md", false)] ∧
    Areas pod oneNote podEvents s.writes.commits := by
  have hcommits : (run pod oneNote {} podEvents).map
      (fun s => s.writes.commits.map fun c => (c.id, c.file.isSome)) =
        some [("work/2026-10-26-one-model/spec.md", true), ("raw/2026-10-26-one-model.md", true),
          ("raw/2026-09-06-old.md", false)] := by decide +kernel
  obtain ⟨s, hs, hids⟩ := Option.map_eq_some_iff.mp hcommits
  exact ⟨s, hs, hids, areas_kept pod oneNote podEvents s hs⟩

end HomelabApps.KnowledgeBase.DocumentHandlers
