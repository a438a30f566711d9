import HomelabApps.Library.Lists
import HomelabApps.QrManager.QrCodeService

/-! What a printed label leads to: a code keeps its slug and its place in the collection until it is deleted,
whatever else is created, changed, deleted and scanned meanwhile. -/

namespace HomelabApps.QrManager

open HomelabApps.Library
open HomelabApps.Library.Transition

variable {baseURL generated slug : String} {s t : Manager} {event : Event} {events : List Event}
  {codes codes' : List QrCode} {code : QrCode} {e : Entry} {entries rest : List Entry} {request : Request}
  {stage : Stage} {own : List Entry}

structure Distinct (codes : List QrCode) : Prop where
  ids : (codes.map (·.id)).Nodup
  slugs : (codes.map (·.slug)).Nodup

theorem Distinct.execute (h : Distinct codes) (id : String) (call : Call) : Distinct (call.execute id codes).1 := by
  cases call with
  | findAll filter => exact h
  | findById key => exact h
  | findBySlug slug => exact h
  | create entity slug =>
    simp only [Call.execute]
    split_ifs with hid hslug
    · exact h
    · exact h
    · exact ⟨Table.nodup_append h.ids hid, Table.nodup_append h.slugs hslug⟩
  | updateById key data =>
    have hid : (Table.update (·.id) key (·.set data) codes).map (·.id) = codes.map (·.id) :=
      Table.map_update fun _ _ _ => rfl
    have hslug : (Table.update (·.id) key (·.set data) codes).map (·.slug) = codes.map (·.slug) :=
      Table.map_update fun _ _ _ => rfl
    exact ⟨hid ▸ h.ids, hslug ▸ h.slugs⟩
  | deleteById key => exact ⟨Table.nodup_filter h.ids, Table.nodup_filter h.slugs⟩

theorem Distinct.left (h : Distinct e.found) : Distinct e.left := by
  rw [Entry.left]
  split
  · exact h.execute e.id e.call
  · exact h

def Entry.deletes (e : Entry) (id : String) : Bool := e.carried && e.call = .deleteById id

def Entry.change (code : QrCode) (e : Entry) : QrCode :=
  match e.call with
  | .updateById id data => if e.carried ∧ id = code.id then code.set data else code
  | .findAll _ => code
  | .findById _ => code
  | .findBySlug _ => code
  | .create _ _ => code
  | .deleteById _ => code

def QrCode.current (code : QrCode) (entries : List Entry) : QrCode := entries.foldl Entry.change code

theorem id_change : (e.change code).id = code.id := by
  rw [Entry.change]
  split
  · split <;> rfl
  all_goals rfl

theorem slug_change : (e.change code).slug = code.slug := by
  rw [Entry.change]
  split
  · split <;> rfl
  all_goals rfl

theorem slug_current (code : QrCode) (entries : List Entry) : (code.current entries).slug = code.slug := by
  induction entries generalizing code with
  | nil => rfl
  | cons e entries ih => exact (ih (e.change code)).trans slug_change

theorem change_mem_left (hcode : code ∈ e.found) (hkept : e.deletes code.id = false) : e.change code ∈ e.left := by
  cases hcarried : e.carried with
  | false =>
    have hsame : e.change code = code := by
      rw [Entry.change]
      split
      · simp [hcarried]
      all_goals rfl
    rw [hsame, Entry.left, hcarried]
    exact hcode
  | true =>
    rw [Entry.left, if_pos hcarried, Entry.change]
    rw [Entry.deletes, hcarried, Bool.true_and] at hkept
    cases hcall : e.call with
    | findAll filter => exact hcode
    | findById id => exact hcode
    | findBySlug slug => exact hcode
    | create entity slug =>
      simp only [Call.execute]
      split_ifs
      · exact hcode
      · exact hcode
      · exact List.mem_append_left _ hcode
    | updateById id data =>
      simp only [Call.execute, hcarried, true_and]
      apply Table.mem_update.2
      split_ifs with hid
      · exact .inl ⟨code, hcode, hid.symm, rfl⟩
      · exact .inr ⟨hcode, fun h => hid h.symm⟩
    | deleteById id =>
      rw [hcall] at hkept
      have hid : code.id ≠ id := fun h => by simp [h] at hkept
      exact List.mem_filter.2 ⟨hcode, by simpa using hid⟩

def Replays : List QrCode → List Entry → List QrCode → Prop
  | codes, [], codes' => codes' = codes
  | codes, e :: entries, codes' => e.found = codes ∧ Replays e.left entries codes'

theorem Replays.snoc (h : Replays codes entries e.found) : Replays codes (entries ++ [e]) e.left := by
  induction entries generalizing codes with
  | nil => exact ⟨h, rfl⟩
  | cons first entries ih => exact ⟨h.1, ih h.2⟩

theorem Replays.distinct (h : Replays codes entries codes') (hcodes : Distinct codes) : Distinct codes' := by
  induction entries generalizing codes with
  | nil => exact h ▸ hcodes
  | cons e entries ih =>
    have hfound : Distinct e.found := h.1 ▸ hcodes
    exact ih h.2 hfound.left

theorem Replays.before (h : Replays codes (entries ++ e :: rest) codes') : Replays codes entries e.found := by
  induction entries generalizing codes with
  | nil => exact h.1
  | cons first entries ih => exact ⟨h.1, ih h.2⟩

theorem Replays.current_mem (h : Replays codes entries codes') (hcode : code ∈ codes)
    (hkept : ∀ e ∈ entries, e.deletes code.id = false) : code.current entries ∈ codes' := by
  induction entries generalizing codes code with
  | nil => exact h ▸ hcode
  | cons e entries ih =>
    apply ih h.2
    · exact change_mem_left (h.1 ▸ hcode) (hkept e List.mem_cons_self)
    · intro later hlater
      rw [id_change]
      exact hkept later (List.mem_cons_of_mem e hlater)

inductive Served (baseURL : String) (request : Request) : List Entry → Stage → Prop
  | start {generated : String} (h : generates generated = true) : Served baseURL request [] (request.start generated)
  | dealt {calls : List Entry} {handler : Handler} (e : Entry)
      (h : Served baseURL request calls (.waiting handler none)) (hcall : e.call = handler.call) :
      Served baseURL request (calls ++ [e]) (.waiting handler (some e.answer))
  | resumed {calls : List Entry} {handler : Handler} {answer : Answer} {stage : Stage} {generated : String}
      {aborted : Bool} (h : Served baseURL request calls (.waiting handler (some answer)))
      (hgenerated : generates generated = true)
      (hresume : handler.resume baseURL generated aborted answer = some stage) : Served baseURL request calls stage

def Manager.calls (s : Manager) (i : Nat) : List Entry := s.log.filter fun e => e.task = i

structure Manager.Sound (baseURL : String) (s : Manager) : Prop where
  served : ∀ i task, s.tasks[i]? = some task → Served baseURL task.request (s.calls i) task.stage
  tasks : ∀ e ∈ s.log, e.task < s.tasks.length
  replays : Replays [] s.log s.codes

theorem Manager.Sound.calls_eq_nil (h : s.Sound baseURL) : s.calls s.tasks.length = [] := by
  rw [Manager.calls, List.filter_eq_nil_iff]
  intro e he
  simpa using Nat.ne_of_lt (h.tasks e he)

theorem Manager.Sound.receive (h : s.Sound baseURL) (hgenerated : generates generated = true) :
    (s.receive request generated).Sound baseURL := by
  constructor
  case served =>
    intro i task htask
    rw [Manager.receive] at htask
    obtain htask | ⟨rfl, rfl⟩ := getElem?_concat_cases htask
    · exact h.served i task htask
    · exact h.calls_eq_nil.symm ▸ .start hgenerated
  case tasks =>
    intro e he
    rw [Manager.receive, List.length_append]
    exact Nat.lt_add_right 1 (h.tasks e he)
  case replays => exact h.replays

theorem calls_deal_self {i : Nat} {task : Task} {handler : Handler} {id : String} {delivery : Delivery} :
    (s.deal i task handler id delivery).calls i = s.calls i ++ [⟨i, handler.call, id, delivery, s.codes⟩] := by
  simp [Manager.calls, Manager.deal]

theorem calls_deal_ne {i j : Nat} {task : Task} {handler : Handler} {id : String} {delivery : Delivery} (hij : i ≠ j) :
    (s.deal i task handler id delivery).calls j = s.calls j := by
  simp [Manager.calls, Manager.deal, hij]

theorem Manager.Sound.deal (h : s.Sound baseURL) {i : Nat} {handler : Handler} (id : String) (delivery : Delivery)
    (hi : s.tasks[i]? = some ⟨request, .waiting handler none⟩) :
    (s.deal i ⟨request, .waiting handler none⟩ handler id delivery).Sound baseURL := by
  have hlt : i < s.tasks.length := (List.getElem?_eq_some_iff.1 hi).1
  constructor
  case served =>
    intro j task htask
    obtain rfl | hij := eq_or_ne i j
    · rw [Manager.deal, List.getElem?_set_self hlt] at htask
      cases htask
      rw [calls_deal_self]
      exact .dealt _ (h.served i _ hi) rfl
    · rw [Manager.deal, List.getElem?_set_ne hij] at htask
      rw [calls_deal_ne hij]
      exact h.served j task htask
  case tasks =>
    intro e he
    rw [Manager.deal, List.length_set]
    obtain he | he := List.mem_append.1 he
    · exact h.tasks e he
    · exact List.mem_singleton.1 he ▸ hlt
  case replays => exact h.replays.snoc

theorem Manager.Sound.put (h : s.Sound baseURL) {i : Nat} {task task' : Task} {aborted : Bool}
    (hi : s.tasks[i]? = some task) (hgenerated : generates generated = true)
    (hresume : task.resume baseURL generated aborted = some task') : (s.put i task').Sound baseURL := by
  have hlt : i < s.tasks.length := (List.getElem?_eq_some_iff.1 hi).1
  constructor
  case served =>
    intro j other hother
    obtain rfl | hij := eq_or_ne i j
    · rw [Manager.put, List.getElem?_set_self hlt] at hother
      cases hother
      have hserved := h.served i task hi
      rw [Task.resume] at hresume
      split at hresume
      · rename_i handler answer hstage
        obtain ⟨stage, hstage', rfl⟩ := Option.map_eq_some_iff.1 hresume
        exact .resumed (hstage ▸ hserved) hgenerated hstage'
      · cases hresume
      · cases hresume
    · rw [Manager.put, List.getElem?_set_ne hij] at hother
      exact h.served j other hother
  case tasks =>
    intro e he
    rw [Manager.put, List.length_set]
    exact h.tasks e he
  case replays => exact h.replays

theorem step_cases (h : s.step baseURL event = some t) :
    (∃ request generated, generates generated = true ∧ t = s.receive request generated) ∨
      (∃ i request handler id delivery, s.tasks[i]? = some ⟨request, .waiting handler none⟩ ∧
        t = s.deal i ⟨request, .waiting handler none⟩ handler id delivery) ∨
      ∃ i task task' generated aborted, s.tasks[i]? = some task ∧ generates generated = true ∧
        Task.resume baseURL generated aborted task = some task' ∧ t = s.put i task' := by
  cases event with
  | request request generated =>
    simp only [Manager.step] at h
    split at h
    · rename_i hgenerated
      exact .inl ⟨request, generated, hgenerated, (Option.some.inj h).symm⟩
    · cases h
  | deal i id delivery =>
    simp only [Manager.step] at h
    split at h
    · rename_i request handler hi
      exact .inr (.inl ⟨i, request, handler, id, delivery, hi, (Option.some.inj h).symm⟩)
    · cases h
    · cases h
    · cases h
  | resume i generated aborted =>
    simp only [Manager.step] at h
    split at h
    · rename_i hgenerated
      obtain ⟨task', htask', rfl⟩ := Option.map_eq_some_iff.1 h
      obtain ⟨task, hi, hresume⟩ := Option.bind_eq_some_iff.1 htask'
      exact .inr (.inr ⟨i, task, task', generated, aborted, hi, hgenerated, hresume, rfl⟩)
    · cases h

theorem Manager.Sound.step (h : s.Sound baseURL) (hstep : s.step baseURL event = some t) : t.Sound baseURL := by
  obtain ⟨request, generated, hgenerated, rfl⟩ | ⟨i, request, handler, id, delivery, hi, rfl⟩ |
    ⟨i, task, task', generated, aborted, hi, hgenerated, hresume, rfl⟩ := step_cases hstep
  · exact h.receive hgenerated
  · exact h.deal id delivery hi
  · exact h.put hi hgenerated hresume

theorem sound_run (hrun : run (Manager.step baseURL) s events = some t) (h : s.Sound baseURL) : t.Sound baseURL := by
  induction events generalizing s with
  | nil =>
    obtain rfl : s = t := by simpa using hrun
    exact h
  | cons event events ih =>
    obtain ⟨m, hm, hrun⟩ := run_cons_eq_some.1 hrun
    exact ih hrun (h.step hm)

theorem sound_default : ({} : Manager).Sound baseURL where
  served i task htask := by simp at htask
  tasks e he := by cases he
  replays := rfl

theorem Replays.append (h : Replays codes entries codes') {more : List Entry} {last : List QrCode}
    (hmore : Replays codes' more last) : Replays codes (entries ++ more) last := by
  induction entries generalizing codes with
  | nil => exact h ▸ hmore
  | cons e entries ih => exact ⟨h.1, ih h.2⟩

theorem log_step (h : s.step baseURL event = some t) :
    ∃ added, t.log = s.log ++ added ∧ Replays s.codes added t.codes := by
  obtain ⟨request, generated, hgenerated, rfl⟩ | ⟨i, request, handler, id, delivery, hi, rfl⟩ |
    ⟨i, task, task', generated, aborted, hi, hgenerated, hresume, rfl⟩ := step_cases h
  · exact ⟨[], (List.append_nil _).symm, rfl⟩
  · exact ⟨[_], rfl, rfl, rfl⟩
  · exact ⟨[], (List.append_nil _).symm, rfl⟩

theorem log_run (hrun : run (Manager.step baseURL) s events = some t) :
    ∃ added, t.log = s.log ++ added ∧ Replays s.codes added t.codes := by
  induction events generalizing s with
  | nil =>
    obtain rfl : s = t := by simpa using hrun
    exact ⟨[], (List.append_nil _).symm, rfl⟩
  | cons event events ih =>
    obtain ⟨m, hm, hrun⟩ := run_cons_eq_some.1 hrun
    obtain ⟨first, hfirst, hreplays⟩ := log_step hm
    obtain ⟨others, hothers, hreplays'⟩ := ih hrun
    refine ⟨first ++ others, ?_, hreplays.append hreplays'⟩
    rw [hothers, hfirst, List.append_assoc]

theorem drop_log (hrun : run (Manager.step baseURL) s events = some t) :
    t.log = s.log ++ t.log.drop s.log.length ∧ Replays s.codes (t.log.drop s.log.length) t.codes := by
  obtain ⟨added, hadded, hreplays⟩ := log_run hrun
  have hdrop : t.log.drop s.log.length = added := by rw [hadded, List.drop_left]
  rw [hdrop]
  exact ⟨hadded, hreplays⟩

theorem distinct_run (hrun : run (Manager.step baseURL) {} events = some s) : Distinct s.codes :=
  (sound_run hrun sound_default).replays.distinct ⟨List.nodup_nil, List.nodup_nil⟩

def Scanned (baseURL slug : String) (own : List Entry) : Stage → Prop
  | .waiting handler none => handler = .redirect slug ∧ own = []
  | .waiting handler (some answer) =>
    handler = .redirect slug ∧ ∃ e, own = [e] ∧ e.call = .findBySlug slug ∧ answer = e.answer
  | .settled outcome =>
    (own = [] ∧ SLUG_REGEX slug = false ∧ outcome = .error .badRequest) ∨
      ∃ e generated aborted, own = [e] ∧ e.call = .findBySlug slug ∧
        (Handler.redirect slug).resume baseURL generated aborted e.answer = some (.settled outcome)

theorem settled_of_resume_redirect {aborted : Bool} {answer : Answer}
    (h : (Handler.redirect slug).resume baseURL generated aborted answer = some stage) :
    ∃ outcome, stage = .settled outcome := by
  cases answer with
  | codes codes => cases h
  | code code => exact ⟨_, (Option.some.inj h).symm⟩
  | done => cases h
  | failed failure => exact ⟨_, (Option.some.inj h).symm⟩

theorem scanned_of_served (h : Served baseURL (.redirect slug) own stage) : Scanned baseURL slug own stage := by
  induction h with
  | start hgenerated =>
    rw [Request.start]
    split
    · exact ⟨rfl, rfl⟩
    · rename_i hregex
      exact .inl ⟨rfl, by simpa using hregex, rfl⟩
  | dealt e h hcall ih =>
    obtain ⟨rfl, rfl⟩ := ih
    exact ⟨rfl, e, rfl, hcall, rfl⟩
  | resumed h hgenerated hresume ih =>
    obtain ⟨rfl, e, rfl, hcall, rfl⟩ := ih
    obtain ⟨outcome, rfl⟩ := settled_of_resume_redirect hresume
    exact .inr ⟨e, _, _, rfl, hcall, hresume⟩

theorem all_alphabet : (SLUG_ALPHABET.all fun c => ('a' ≤ c ∧ c ≤ 'z') ∨ ('0' ≤ c ∧ c ≤ '9')) = true := by decide

theorem regex_of_generates (h : generates slug = true) : SLUG_REGEX slug = true := by
  rw [generates, Bool.and_eq_true, List.all_eq_true] at h
  rw [SLUG_REGEX, Bool.and_eq_true, List.all_eq_true]
  refine ⟨h.1, fun c hc => ?_⟩
  have hmem : c ∈ SLUG_ALPHABET := by simpa using h.2 c hc
  exact List.all_eq_true.1 all_alphabet c hmem

theorem resume_create {handler : Handler} {answer : Answer} {next : Option Answer} {aborted : Bool}
    {entity : QrCodeEntity} {attempt : Nat}
    (h : handler.resume baseURL generated aborted answer = some (.waiting (.create entity attempt slug) next)) :
    slug = generated := by
  cases handler with
  | create entity attempt before =>
    simp only [Handler.resume] at h
    cases answer with
    | codes codes => cases h
    | done => cases h
    | code code =>
      cases code with
      | none => cases h
      | some code => cases h
    | failed failure =>
      simp only [QrCodeService.create] at h
      split_ifs at h
      · cases h
        rfl
      · cases h
      · cases h
  | list filter => cases answer <;> cases h
  | get id =>
    cases answer with
    | code code => cases code <;> cases h
    | _ => cases h
  | update id request =>
    cases answer with
    | code code => cases code <;> cases h
    | _ => cases h
  | deleteGet id =>
    cases answer with
    | code code => cases code <;> cases h
    | _ => cases h
  | delete id => cases answer <;> cases h
  | image id format =>
    cases answer with
    | code code => cases code <;> cases h
    | _ => cases h
  | redirect slug => cases answer <;> cases h

def Handler.creates : Handler → Option String
  | .create _ _ slug => some slug
  | .list _ => none
  | .get _ => none
  | .update _ _ => none
  | .deleteGet _ => none
  | .delete _ => none
  | .image _ _ => none
  | .redirect _ => none

def Stage.creates : Stage → Option String
  | .waiting handler _ => handler.creates
  | .settled _ => none

theorem generates_of_served (h : Served baseURL request own stage) :
    (∀ slug, stage.creates = some slug → generates slug = true) ∧
      ∀ e ∈ own, ∀ entity slug, e.call = .create entity slug → generates slug = true := by
  induction h with
  | start hgenerated =>
    refine ⟨fun slug hslug => ?_, List.forall_mem_nil _⟩
    cases request with
    | create request => exact Option.some.inj hslug ▸ hgenerated
    | redirect key =>
      rw [Request.start] at hslug
      split at hslug <;> cases hslug
    | _ => cases hslug
  | @dealt calls handler e h hcall ih =>
    have hhandler : ∀ entity slug, handler.call = .create entity slug → generates slug = true := by
      intro entity slug hslug
      cases handler with
      | create entity attempt key =>
        cases hslug
        exact ih.1 slug rfl
      | _ => cases hslug
    refine ⟨ih.1, fun other hother => ?_⟩
    obtain hother | hother := List.mem_append.1 hother
    · exact ih.2 other hother
    · rw [List.mem_singleton.1 hother, hcall]
      exact hhandler
  | @resumed calls handler answer stage generated aborted h hgenerated hresume ih =>
    refine ⟨fun slug hslug => ?_, ih.2⟩
    cases stage with
    | settled outcome => cases hslug
    | waiting next answer =>
      cases next with
      | create entity attempt key =>
        cases hslug
        exact resume_create hresume ▸ hgenerated
      | _ => cases hslug

theorem slug_of_mem_left (h : code ∈ e.left) :
    (∃ before ∈ e.found, before.slug = code.slug) ∨ ∃ entity, e.call = .create entity code.slug := by
  rw [Entry.left] at h
  split at h
  · cases hcall : e.call with
    | create entity slug =>
      simp only [hcall, Call.execute] at h
      split_ifs at h
      · exact .inl ⟨code, h, rfl⟩
      · exact .inl ⟨code, h, rfl⟩
      · obtain h | h := List.mem_append.1 h
        · exact .inl ⟨code, h, rfl⟩
        · exact .inr ⟨entity, by rw [List.mem_singleton.1 h]; rfl⟩
    | updateById id data =>
      simp only [hcall, Call.execute] at h
      obtain ⟨before, hbefore, -, rfl⟩ | ⟨hsame, -⟩ := Table.mem_update.1 h
      · exact .inl ⟨before, hbefore, rfl⟩
      · exact .inl ⟨code, hsame, rfl⟩
    | deleteById id =>
      simp only [hcall, Call.execute] at h
      exact .inl ⟨code, List.mem_of_mem_filter h, rfl⟩
    | findAll filter =>
      simp only [hcall, Call.execute] at h
      exact .inl ⟨code, h, rfl⟩
    | findById id =>
      simp only [hcall, Call.execute] at h
      exact .inl ⟨code, h, rfl⟩
    | findBySlug slug =>
      simp only [hcall, Call.execute] at h
      exact .inl ⟨code, h, rfl⟩
  · exact .inl ⟨code, h, rfl⟩

theorem Replays.generates (h : Replays codes entries codes')
    (hentries : ∀ e ∈ entries, ∀ entity slug, e.call = .create entity slug → generates slug = true)
    (hcodes : ∀ code ∈ codes, QrManager.generates code.slug = true) :
    ∀ code ∈ codes', QrManager.generates code.slug = true := by
  induction entries generalizing codes with
  | nil => exact h ▸ hcodes
  | cons e entries ih =>
    apply ih h.2 fun later hlater => hentries later (List.mem_cons_of_mem e hlater)
    intro code hcode
    obtain ⟨before, hbefore, hslug⟩ | ⟨entity, hcall⟩ := slug_of_mem_left hcode
    · exact hslug ▸ hcodes before (h.1 ▸ hbefore)
    · exact hentries e List.mem_cons_self entity code.slug hcall

theorem generates_run (hrun : run (Manager.step baseURL) {} events = some s) :
    ∀ code ∈ s.codes, generates code.slug = true := by
  have hsound := sound_run hrun sound_default
  apply hsound.replays.generates
  · intro e he
    obtain ⟨task, htask⟩ : ∃ task, s.tasks[e.task]? = some task := ⟨_, List.getElem?_eq_getElem (hsound.tasks e he)⟩
    apply (generates_of_served (hsound.served e.task _ htask)).2 e
    exact List.mem_filter.2 ⟨he, decide_eq_true rfl⟩
  · exact List.forall_mem_nil _

theorem composeQrURL_injective {other : String} (h : composeQrURL baseURL slug = composeQrURL baseURL other) :
    slug = other := by
  have hlist := congrArg String.toList h
  simp only [composeQrURL, String.toList_append, List.append_assoc] at hlist
  exact String.toList_inj.1 (List.append_cancel_left (List.append_cancel_left hlist))

theorem find?_of_mem (h : Distinct codes) (hcode : code ∈ codes) :
    codes.find? (fun other => other.slug = code.slug) = some code :=
  (Table.find?_eq_some_iff h.slugs).2 ⟨hcode, rfl⟩

theorem outcome_of_resume {aborted : Bool} {outcome : Except Exception Result} (hdistinct : Distinct e.found)
    (hcode : code ∈ e.found) (hcall : e.call = .findBySlug code.slug)
    (h : (Handler.redirect code.slug).resume baseURL generated aborted e.answer = some (.settled outcome)) :
    (e.delivery = .answered ∧
        outcome = if code.active then .ok (.redirect code.targetURL) else .error (qrCodeNotFound code.slug)) ∨
      ∃ outage aborted, (e.delivery = .lost outage ∨ e.delivery = .rejected outage) ∧
        outcome = .error (RedirectHandler.lookup aborted outage.failure) := by
  rw [Entry.answer] at h
  split at h
  · rename_i hdelivery
    rw [hcall, Call.execute, find?_of_mem hdistinct hcode] at h
    cases h
    exact .inl ⟨hdelivery, rfl⟩
  · rename_i outage hdelivery
    cases h
    exact .inr ⟨outage, aborted, .inl hdelivery, rfl⟩
  · rename_i outage hdelivery
    cases h
    exact .inr ⟨outage, aborted, .inr hdelivery, rfl⟩

theorem scan_current {later : List Event} {i : Nat} {outcome : Except Exception Result}
    (hs : run (Manager.step baseURL) {} events = some s) (hcode : code ∈ s.codes)
    (ht : run (Manager.step baseURL) s later = some t)
    (hkept : ∀ e ∈ t.log.drop s.log.length, e.deletes code.id = false) (hlate : s.tasks.length ≤ i)
    (hi : t.tasks[i]? = some ⟨.redirect code.slug, .settled outcome⟩) :
    ∃ before e after, t.log.drop s.log.length = before ++ e :: after ∧ e.task = i ∧
      ((e.delivery = .answered ∧
          outcome =
            if (code.current before).active then .ok (.redirect (code.current before).targetURL)
            else .error (qrCodeNotFound code.slug)) ∨
        ∃ outage aborted, (e.delivery = .lost outage ∨ e.delivery = .rejected outage) ∧
          outcome = .error (RedirectHandler.lookup aborted outage.failure)) := by
  have hsound : s.Sound baseURL := sound_run hs sound_default
  have hsound' : t.Sound baseURL := sound_run ht hsound
  obtain ⟨hlog, hreplays⟩ := drop_log ht
  have hregex : SLUG_REGEX code.slug = true := regex_of_generates (generates_run hs code hcode)
  obtain ⟨-, hbad, -⟩ | ⟨e, generated, aborted, hcalls, hcall, hresume⟩ := scanned_of_served (hsound'.served i _ hi)
  · rw [hregex] at hbad
    cases hbad
  · have he : e ∈ t.calls i := hcalls ▸ List.mem_singleton_self e
    have htask : e.task = i := by simpa using (List.mem_filter.1 he).2
    have hadded : e ∈ t.log.drop s.log.length := by
      have hmem := (List.mem_filter.1 he).1
      rw [hlog] at hmem
      obtain hold | hnew := List.mem_append.1 hmem
      · exact absurd (hsound.tasks e hold) (Nat.not_lt_of_le (htask ▸ hlate))
      · exact hnew
    obtain ⟨before, after, hsplit⟩ := List.mem_iff_append.1 hadded
    rw [hsplit] at hreplays hkept
    have hfound : code.current before ∈ e.found :=
      hreplays.before.current_mem hcode fun other hother => hkept other (List.mem_append_left _ hother)
    refine ⟨before, e, after, hsplit, htask, ?_⟩
    rw [← slug_current code before] at hcall hresume ⊢
    exact outcome_of_resume (hreplays.before.distinct (distinct_run hs)) hfound hcall hresume

theorem label_current {later : List Event} (hs : run (Manager.step baseURL) {} events = some s) (hcode : code ∈ s.codes)
    (ht : run (Manager.step baseURL) s later = some t)
    (hkept : ∀ e ∈ t.log.drop s.log.length, e.deletes code.id = false) :
    (code.current (t.log.drop s.log.length) ∈ t.codes ∧ (code.current (t.log.drop s.log.length)).slug = code.slug) ∧
      (∀ other ∈ t.codes, composeQrURL baseURL other.slug = composeQrURL baseURL code.slug →
        other = code.current (t.log.drop s.log.length)) ∧
      ∀ i outcome, s.tasks.length ≤ i → t.tasks[i]? = some ⟨.redirect code.slug, .settled outcome⟩ →
        ∃ before e after, t.log.drop s.log.length = before ++ e :: after ∧ e.task = i ∧
          ((e.delivery = .answered ∧
              outcome =
                if (code.current before).active then .ok (.redirect (code.current before).targetURL)
                else .error (qrCodeNotFound code.slug)) ∨
            ∃ outage aborted, (e.delivery = .lost outage ∨ e.delivery = .rejected outage) ∧
              outcome = .error (RedirectHandler.lookup aborted outage.failure)) := by
  obtain ⟨-, hreplays⟩ := drop_log ht
  have hlast : code.current (t.log.drop s.log.length) ∈ t.codes := hreplays.current_mem hcode hkept
  refine ⟨⟨hlast, slug_current code _⟩, fun other hother hurl => ?_, fun i outcome => scan_current hs hcode ht hkept⟩
  apply Table.eq_of_key (hreplays.distinct (distinct_run hs)).slugs hother hlast
  exact (composeQrURL_injective hurl).trans (slug_current code _).symm

theorem label_current_changed :
    ∃ s t, ∃ code changed : QrCode,
      run (Manager.step "http://qr.home/") {}
        [.request (.create ⟨"https://one", "One", .plant⟩) "x7k2", .deal 0 "a" .answered] = some s ∧
      code ∈ s.codes ∧
      run (Manager.step "http://qr.home/") s
        [.request (.update "a" { targetURL := some "https://two" }) "0000", .deal 1 "" .answered,
          .request (.create ⟨"https://three", "Three", .other⟩) "x7k2", .deal 2 "b" .answered,
          .request (.redirect "x7k2") "0000", .deal 3 "" .answered, .resume 3 "0000" false] = some t ∧
      changed ∈ t.codes ∧ changed.targetURL = "https://two" ∧
      (∀ other ∈ t.codes, composeQrURL "http://qr.home/" other.slug = composeQrURL "http://qr.home/" code.slug →
        other = changed) ∧
      ∃ before e after, t.log.drop s.log.length = before ++ e :: after ∧ e.task = 3 ∧
        ((e.delivery = .answered ∧
            Except.ok (Result.redirect "https://two") =
              if (code.current before).active then .ok (.redirect (code.current before).targetURL)
              else .error (qrCodeNotFound "x7k2")) ∨
          ∃ outage aborted, (e.delivery = .lost outage ∨ e.delivery = .rejected outage) ∧
            Except.ok (Result.redirect "https://two") = .error (RedirectHandler.lookup aborted outage.failure)) := by
  let code : QrCode := ⟨"a", "x7k2", "https://one", "One", .plant, true⟩
  obtain ⟨s, hs, hcode, hlength, t, ht, hkept, hchanged, htask⟩ : ∃ s, run (Manager.step "http://qr.home/") {}
      [.request (.create ⟨"https://one", "One", .plant⟩) "x7k2", .deal 0 "a" .answered] = some s ∧
      code ∈ s.codes ∧ s.tasks.length ≤ 3 ∧ ∃ t, run (Manager.step "http://qr.home/") s
        [.request (.update "a" { targetURL := some "https://two" }) "0000", .deal 1 "" .answered,
          .request (.create ⟨"https://three", "Three", .other⟩) "x7k2", .deal 2 "b" .answered,
          .request (.redirect "x7k2") "0000", .deal 3 "" .answered, .resume 3 "0000" false] = some t ∧
        (t.log.drop s.log.length).all (fun e => !e.deletes "a") = true ∧
        (code.current (t.log.drop s.log.length)).targetURL = "https://two" ∧
        t.tasks[3]? = some ⟨.redirect "x7k2", .settled (.ok (.redirect "https://two"))⟩ :=
    ⟨_, rfl, List.mem_singleton_self _, by decide, _, rfl, rfl, rfl, rfl⟩
  have hkept' : ∀ e ∈ t.log.drop s.log.length, e.deletes code.id = false := fun e he => by
    simpa using List.all_eq_true.1 hkept e he
  obtain ⟨⟨hlast, -⟩, honly, hscan⟩ := label_current hs hcode ht hkept'
  exact ⟨s, t, code, _, hs, hcode, ht, hlast, hchanged, honly, hscan 3 _ hlength htask⟩

end HomelabApps.QrManager
