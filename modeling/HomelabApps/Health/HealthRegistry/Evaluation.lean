import HomelabApps.Health.HealthRegistry.Isolation

namespace HomelabApps.Health

open HomelabApps.Library
open HomelabApps.Library.Utf16
open HomelabApps.Library.Json (Value)
open HomelabApps.Library.Transition (run Along always_of_along run_cons_eq_some)

def Event.Readable (fits : Value → Bool) (registry : HealthRegistry) (s : State) : Event → Prop
  | .evaluate throws => s.hit registry = none → s.inFlight = none →
      ∀ k error, k < registry.checks.length → throws k = some error → error.Readable fits
  | .settle i k settlement => ∀ pass current, s.passes[i]? = some pass → pass.runs[k]? = some current →
      current.outcome = .pending → (Behaviour.settled settlement).Readable fits
  | _ => True

inductive Served (config : ResolvedHealthConfig) (s : State) (call : Call) : Prop
  | cached (pass : Pass) (gathered : Gathered) (evaluated : List EvaluatedCheck) (time : Nat) :
      s.passes[call.fetch]? = some pass → pass.gathered = some gathered → gathered.evaluated = .fulfilled evaluated →
      pass.storedAt = some time → call.madeAt < time + config.cacheTtlMs →
      call.cached = some (evaluation evaluated) → Served config s call
  | shared (pass : Pass) : s.passes[call.fetch]? = some pass → pass.finished = false → call.cached = none →
      Served config s call

structure Evaluates (fits : Value → Bool) (registry : HealthRegistry) (s : State) : Prop where
  never_rejects : ∀ call ∈ s.calls, s.returned call ≠ .rejected
  deadlines : ∀ (i k : Nat) (pass : Pass) (current : Run), s.passes[i]? = some pass → pass.runs[k]? = some current →
    current.behaviours = [] → ∃ duration t, run (step fits registry) s [.wait duration, .expire i k] = some t
  gathers : ∀ (i : Nat) (pass : Pass), s.passes[i]? = some pass → pass.gathered = none →
    ((∃ t, step fits registry s (.gather i) = some t) ↔ ∀ current ∈ pass.runs, current.behaviours ≠ [])
  completes : ∀ (i : Nat) (pass : Pass), s.passes[i]? = some pass → (∀ current ∈ pass.runs, current.behaviours ≠ []) →
    ∃ events t, events ⊆ [Event.gather i, .store i, .finish i] ∧ run (step fits registry) s events = some t ∧
      ∀ call ∈ s.calls, call.fetch = i → ∃ value, t.returned call = .fulfilled value
  results : ∀ pass ∈ s.passes, pass.runs.map (·.check) = registry.checks ∧
    ∀ gathered, pass.gathered = some gathered → ∃ evaluated, gathered.evaluated = .fulfilled evaluated ∧
      List.Forall₂ (fun current e => e.check = current.check ∧
        ∃ first rest, current.behaviours = first :: rest ∧ runOne fits current.check first = .fulfilled e)
        pass.runs evaluated
  single_flight : ∀ (i : Nat) (pass : Pass), s.passes[i]? = some pass → (pass.finished = false ↔ s.inFlight = some i)
  fresh : ∀ throws, ∃ call, (s.evaluate fits registry throws).calls = s.calls ++ [call] ∧ call.madeAt = s.now ∧
    Served registry.config (s.evaluate fits registry throws) call

variable {fits : Value → Bool} {registry : HealthRegistry} {s t : State} {pass : Pass} {current next : Run}
  {check : HealthCheck} {events : List Event} {i k : Nat}

def State.Fulfils (s : State) : Prop := ∀ pass ∈ s.passes, ∀ current ∈ pass.runs, current.outcome ≠ .rejected

theorem Run.start_fulfils {throws : Option Thrown} (h : ∀ error, throws = some error → error.Readable fits) :
    (Run.start fits check throws).outcome ≠ .rejected := by
  cases throws with
  | none => nofun
  | some error => exact caught_readable (h error rfl)

theorem Run.meet_fulfils {behaviour : Behaviour} (h : current.outcome ≠ .rejected)
    (hread : current.outcome = .pending → behaviour.Readable fits) :
    (current.meet fits behaviour).outcome ≠ .rejected := by
  rw [Run.meet]
  cases houtcome : current.outcome with
  | pending => exact runOne_readable (hread houtcome)
  | fulfilled e =>
    intro hrejected
    cases hrejected
  | rejected => exact absurd houtcome h

theorem State.Fulfils.put {p : Pass} (h : s.Fulfils) (hp : ∀ current ∈ p.runs, current.outcome ≠ .rejected) :
    ∀ pass ∈ s.passes.set i p, ∀ current ∈ pass.runs, current.outcome ≠ .rejected := by
  intro pass hpass
  obtain hpass | rfl := List.mem_or_eq_of_mem_set hpass
  · exact h pass hpass
  · exact hp

theorem State.Fulfils.updateRun {f : Pass → Run → Option Run} (h : s.Fulfils) (hupdate : s.updateRun i k f = some t)
    (hf : ∀ pass current next, s.passes[i]? = some pass → pass.runs[k]? = some current →
      current.outcome ≠ .rejected → f pass current = some next → next.outcome ≠ .rejected) : t.Fulfils := by
  obtain ⟨pass, current, next, hpass, hcurrent, hnext, rfl⟩ := updateRun_some hupdate
  have hold := h pass (List.mem_of_getElem? hpass)
  apply h.put
  intro other hother
  obtain hother | rfl := List.mem_or_eq_of_mem_set hother
  · exact hold other hother
  · exact hf pass current other hpass hcurrent (hold current (List.mem_of_getElem? hcurrent)) hnext

theorem fulfils_evaluate {throws : Nat → Option Thrown} (h : s.Fulfils)
    (hread : (Event.evaluate throws).Readable fits registry s) : (s.evaluate fits registry throws).Fulfils := by
  rw [State.evaluate]
  cases hhit : s.hit registry with
  | some cached => exact h
  | none =>
    cases hslot : s.inFlight with
    | some pass => exact h
    | none =>
      intro pass hpass
      obtain hpass | hpass := List.mem_append.mp hpass
      · exact h pass hpass
      · rw [List.mem_singleton.mp hpass]
        intro current hcurrent
        obtain ⟨k, hk, rfl⟩ := List.mem_mapIdx.mp hcurrent
        exact Run.start_fulfils fun error herror => hread hhit hslot k error hk herror

theorem fulfils_step {event : Event} (h : s.Fulfils) (hread : event.Readable fits registry s)
    (hstep : step fits registry s event = some t) : t.Fulfils := by
  cases event with
  | evaluate throws =>
    cases hstep
    exact fulfils_evaluate h hread
  | wait duration =>
    cases hstep
    exact h
  | settle i k settlement =>
    refine h.updateRun hstep fun pass current next hpass hcurrent hold hnext => ?_
    rw [Run.settle_some hnext]
    exact Run.meet_fulfils hold (hread pass current hpass hcurrent)
  | expire i k =>
    refine h.updateRun hstep fun pass current next _ _ hold hnext => ?_
    split_ifs at hnext
    rw [Run.expire_some hnext]
    exact Run.meet_fulfils hold fun _ => trivial
  | gather i =>
    obtain ⟨pass, hpass, _, _, rfl⟩ := gather_some hstep
    exact h.put (h pass (List.mem_of_getElem? hpass))
  | store i =>
    obtain ⟨pass, gathered, hpass, _, _, rfl⟩ := store_some hstep
    exact h.put (h pass (List.mem_of_getElem? hpass))
  | finish i =>
    obtain ⟨pass, hpass, _, _, rfl⟩ := finish_some hstep
    exact h.put (h pass (List.mem_of_getElem? hpass))

theorem fulfils_of_run (hread : Along (step fits registry) (Event.Readable fits registry) {} events)
    (hrun : run (step fits registry) {} events = some s) : s.Fulfils :=
  (always_of_along (fun _ _ _ h hread hstep => fulfils_step h hread hstep) (fun _ hpass => by cases hpass) hread).last hrun

theorem all_ne_rejected (h : ∀ current ∈ pass.runs, current.outcome ≠ .rejected) : pass.all ≠ .rejected := by
  intro hall
  obtain ⟨current, hcurrent, houtcome⟩ := List.mem_map.mp (Promise.all_eq_rejected.mp hall)
  exact h current hcurrent houtcome

theorem Pass.Sound.fulfilled (hpass : pass.Sound fits registry)
    (h : ∀ current ∈ pass.runs, current.outcome ≠ .rejected) {gathered : Gathered}
    (hgathered : pass.gathered = some gathered) : ∃ evaluated, gathered.evaluated = .fulfilled evaluated := by
  obtain ⟨hsettled, hall⟩ := hpass.gathered gathered hgathered
  cases hevaluated : gathered.evaluated with
  | pending => exact absurd hevaluated hsettled
  | fulfilled evaluated => exact ⟨evaluated, rfl⟩
  | rejected => exact absurd (hall.trans hevaluated) (all_ne_rejected h)

theorem promise_ne_rejected (hpass : pass.Sound fits registry)
    (h : ∀ current ∈ pass.runs, current.outcome ≠ .rejected) : pass.promise ≠ .rejected := by
  rw [Pass.promise]
  split_ifs
  · cases hgathered : pass.gathered with
    | none => nofun
    | some gathered =>
      obtain ⟨evaluated, hevaluated⟩ := hpass.fulfilled h hgathered
      simp only [hevaluated, Promise.map]
      nofun
  · nofun

theorem returned_ne_rejected (hsound : s.Sound fits registry) (h : s.Fulfils) (call : Call) :
    s.returned call ≠ .rejected := by
  rw [State.returned]
  split
  · nofun
  · split
    · rename_i pass hpass
      have hmem := List.mem_of_getElem? hpass
      exact promise_ne_rejected (hsound pass hmem) (h pass hmem)
    · nofun

theorem Run.Sound.result {e : EvaluatedCheck} (h : current.Sound fits) (he : current.outcome = .fulfilled e) :
    e.check = current.check ∧
      ∃ first rest, current.behaviours = first :: rest ∧ runOne fits current.check first = .fulfilled e := by
  have houtcome := h.outcome
  cases hbehaviours : current.behaviours with
  | nil =>
    rw [he, hbehaviours] at houtcome
    cases houtcome
  | cons first rest =>
    rw [he, hbehaviours] at houtcome
    have hone : Promise.fulfilled e = runOne fits current.check first := houtcome
    have hcheck := runOne_concludes fits current.check first
    rw [← hone] at hcheck
    cases hcheck with
    | fulfilled hcheck => exact ⟨hcheck, first, rest, rfl, hone.symm⟩

theorem results_of_outcomes {runs : List Run} {evaluated : List EvaluatedCheck} (h : ∀ current ∈ runs, current.Sound fits)
    (houtcomes : runs.map (·.outcome) = evaluated.map .fulfilled) :
    List.Forall₂ (fun current e => e.check = current.check ∧
      ∃ first rest, current.behaviours = first :: rest ∧ runOne fits current.check first = .fulfilled e)
      runs evaluated := by
  induction runs generalizing evaluated with
  | nil =>
    cases evaluated with
    | nil => exact .nil
    | cons e evaluated => cases houtcomes
  | cons current runs ih =>
    cases evaluated with
    | nil => cases houtcomes
    | cons e evaluated =>
      rw [List.map_cons, List.map_cons, List.cons.injEq] at houtcomes
      apply List.Forall₂.cons
      · exact (h current List.mem_cons_self).result houtcomes.1
      · exact ih (fun other hother => h other (List.mem_cons_of_mem current hother)) houtcomes.2

theorem expire_enabled (hsound : s.Sound fits registry) (hpass : s.passes[i]? = some pass)
    (hcurrent : pass.runs[k]? = some current) (hnone : current.behaviours = []) :
    ∃ duration t, run (step fits registry) s [.wait duration, .expire i k] = some t := by
  have harmed := ((hsound pass (List.mem_of_getElem? hpass)).runs current (List.mem_of_getElem? hcurrent)).armed hnone
  have htime : pass.startedAt + registry.config.checkTimeoutMs ≤
      s.now + (pass.startedAt + registry.config.checkTimeoutMs) := Nat.le_add_left _ _
  refine ⟨pass.startedAt + registry.config.checkTimeoutMs, ?_⟩
  simp [run, step, State.updateRun, hpass, hcurrent, Run.expire, harmed, htime]

theorem gather_enabled (hsound : s.Sound fits registry) (h : s.Fulfils) (hpass : s.passes[i]? = some pass)
    (hgathered : pass.gathered = none) :
    (∃ t, step fits registry s (.gather i) = some t) ↔ ∀ current ∈ pass.runs, current.behaviours ≠ [] := by
  have hmem := List.mem_of_getElem? hpass
  have hrejected : Promise.rejected ∉ pass.runs.map (·.outcome) := by
    intro hin
    obtain ⟨current, hcurrent, houtcome⟩ := List.mem_map.mp hin
    exact h pass hmem current hcurrent houtcome
  have hpending : pass.all = .pending ↔ ∃ current ∈ pass.runs, current.behaviours = [] := by
    rw [Pass.all, Promise.all_eq_pending hrejected, List.mem_map]
    apply exists_congr
    intro current
    apply and_congr_right
    intro hcurrent
    exact ((hsound pass hmem).runs current hcurrent).pending_iff
  have hstep : (∃ t, step fits registry s (.gather i) = some t) ↔ pass.all ≠ .pending := by
    rw [step, State.gather, hpass, Option.bind_some, hgathered]
    cases pass.all <;> simp
  rw [hstep, Ne, hpending]
  simp

structure Completion (fits : Value → Bool) (registry : HealthRegistry) (s : State) (i : Nat)
    (evaluated : List EvaluatedCheck) (events : List Event) (t : State) : Prop where
  ran : run (step fits registry) s events = some t
  stages : events ⊆ [Event.gather i, .store i, .finish i]
  calls : t.calls = s.calls
  finished : ∃ pass gathered, t.passes[i]? = some pass ∧ pass.finished = true ∧ pass.gathered = some gathered ∧
    gathered.evaluated = .fulfilled evaluated

variable {gathered : Gathered} {evaluated : List EvaluatedCheck}

theorem Completion.cons {event : Event} (hstep : step fits registry s event = some t)
    (hevent : event ∈ [Event.gather i, .store i, .finish i]) (hcalls : t.calls = s.calls) {u : State}
    (h : Completion fits registry t i evaluated events u) : Completion fits registry s i evaluated (event :: events) u where
  ran := run_cons_eq_some.mpr ⟨t, hstep, h.ran⟩
  stages := List.cons_subset.mpr ⟨hevent, h.stages⟩
  calls := h.calls.trans hcalls
  finished := h.finished

theorem getElem?_passes_set {p : Pass} (hpass : s.passes[i]? = some pass) : (s.passes.set i p)[i]? = some p :=
  List.getElem?_set_self (List.getElem?_eq_some_iff.mp hpass).1

theorem completion_of_stored (hpass : s.passes[i]? = some pass) (hgathered : pass.gathered = some gathered)
    (hevaluated : gathered.evaluated = .fulfilled evaluated) (hstored : pass.storedAt ≠ none) :
    ∃ events t, Completion fits registry s i evaluated events t := by
  cases hfinished : pass.finished with
  | true => exact ⟨[], s, rfl, List.nil_subset _, rfl, pass, gathered, hpass, hfinished, hgathered, hevaluated⟩
  | false =>
    have hstep : step fits registry s (.finish i) =
        some { s with inFlight := none, passes := s.passes.set i { pass with finished := true } } := by
      simp [step, State.finish, hpass, hfinished, hstored]
    refine ⟨[.finish i], _, Completion.cons hstep (by simp) rfl ⟨rfl, List.nil_subset _, rfl, ?_⟩⟩
    exact ⟨_, gathered, getElem?_passes_set hpass, rfl, hgathered, hevaluated⟩

theorem completion_of_gathered (hpass : s.passes[i]? = some pass) (hgathered : pass.gathered = some gathered)
    (hevaluated : gathered.evaluated = .fulfilled evaluated) :
    ∃ events t, Completion fits registry s i evaluated events t := by
  cases hstored : pass.storedAt with
  | some time => exact completion_of_stored hpass hgathered hevaluated (hstored ▸ nofun)
  | none =>
    have hstep : step fits registry s (.store i) = some { s with
        cached := gathered.cached s.now i s.cached
        passes := s.passes.set i { pass with storedAt := some s.now } } := by
      simp [step, State.store, hpass, hstored, hgathered]
    obtain ⟨events, t, h⟩ : ∃ events t, Completion fits registry { s with
        cached := gathered.cached s.now i s.cached
        passes := s.passes.set i { pass with storedAt := some s.now } } i evaluated events t :=
      completion_of_stored (getElem?_passes_set hpass) hgathered hevaluated nofun
    exact ⟨_, t, h.cons hstep (by simp) rfl⟩

theorem completion_of_sound (hsound : s.Sound fits registry) (h : s.Fulfils) (hpass : s.passes[i]? = some pass)
    (hdone : ∀ current ∈ pass.runs, current.behaviours ≠ []) :
    ∃ evaluated events t, Completion fits registry s i evaluated events t := by
  have hmem := List.mem_of_getElem? hpass
  cases hgathered : pass.gathered with
  | some gathered =>
    obtain ⟨evaluated, hevaluated⟩ := (hsound pass hmem).fulfilled (h pass hmem) hgathered
    exact ⟨evaluated, completion_of_gathered hpass hgathered hevaluated⟩
  | none =>
    obtain ⟨t, hstep⟩ := (gather_enabled hsound h hpass hgathered).mpr hdone
    obtain ⟨p, hp, _, hpending, rfl⟩ := gather_some hstep
    obtain rfl : pass = p := Option.some.inj (hpass.symm.trans hp)
    cases hall : pass.all with
    | pending => exact absurd hall hpending
    | rejected => exact absurd hall (all_ne_rejected (h pass hmem))
    | fulfilled evaluated =>
      obtain ⟨events, u, hcompletion⟩ : ∃ events u, Completion fits registry { s with
          passes := s.passes.set i { pass with gathered := some { time := s.now, evaluated := pass.all } } }
          i evaluated events u :=
        completion_of_gathered (getElem?_passes_set hpass) rfl hall
      exact ⟨evaluated, _, u, hcompletion.cons hstep (by simp) rfl⟩

theorem Completion.returned (h : Completion fits registry s i evaluated events t) {call : Call} (hcall : call.fetch = i) :
    ∃ value, t.returned call = .fulfilled value := by
  obtain ⟨pass, gathered, hpass, hfinished, hgathered, hevaluated⟩ := h.finished
  rw [State.returned]
  split
  · exact ⟨_, rfl⟩
  · refine ⟨evaluation evaluated, ?_⟩
    simp [hcall, hpass, Pass.promise, hfinished, hgathered, hevaluated, Promise.map]

theorem in_flight_iff (hrun : run (step fits registry) {} events = some s) (hpass : s.passes[i]? = some pass) :
    pass.finished = false ↔ s.inFlight = some i := by
  have hcoherent := coherent_of_run hrun
  constructor
  · intro hfinished
    exact hcoherent.current i pass.fetch (getElem?_fetches hpass) hfinished rfl
  · intro hslot
    obtain ⟨f, hf, hsettled, _⟩ := hcoherent.slot i hslot
    obtain rfl : pass.fetch = f := Option.some.inj ((getElem?_fetches hpass).symm.trans hf)
    exact hsettled

theorem outcome_eq_ok {promise : Promise (List EvaluatedCheck)} {result : HealthEvaluation} (h : outcome promise = .ok result) :
    ∃ evaluated, promise = .fulfilled evaluated ∧ evaluation evaluated = result := by
  cases promise with
  | pending => cases h
  | fulfilled evaluated => exact ⟨evaluated, rfl, Except.ok.inj h⟩
  | rejected => cases h

theorem cached_served (hrun : run (step fits registry) {} events = some s) {cached : Cached}
    (hhit : s.hit registry = some cached) (calls : List Call) :
    Served registry.config { s with calls := calls } ⟨s.now, cached.pass, some cached.value⟩ := by
  obtain ⟨hcached, husable⟩ := Option.filter_eq_some_iff.mp hhit
  have hkept : s.shared.cache.cached = some cached.kept := congrArg (Option.map Cached.kept) hcached
  have hexpires : s.shared.cache.expiresAt = some cached.time := congrArg (Option.map Cached.time) hcached
  obtain ⟨f, hf, _, reply, result, time, hresumed, hvalue, hexpiry⟩ := (coherent_of_run hrun).kept cached.kept hkept
  rw [State.shared, List.getElem?_map] at hf
  obtain ⟨pass, hpass, rfl⟩ := Option.map_eq_some_iff.mp hf
  obtain ⟨gathered, hgathered, rfl⟩ := Option.map_eq_some_iff.mp hresumed.replied
  obtain ⟨evaluated, hevaluated, hresult⟩ := outcome_eq_ok hresumed.outcome
  obtain rfl : time = cached.time := Option.some.inj (hexpiry.trans hexpires)
  have hage : s.now - cached.time < registry.config.cacheTtlMs := of_decide_eq_true husable
  apply Served.cached pass gathered evaluated cached.time hpass hgathered hevaluated hresumed.resumed
  · dsimp only
    omega
  · exact congrArg some (hvalue.symm.trans hresult.symm)

theorem evaluate_served (hrun : run (step fits registry) {} events = some s) (throws : Nat → Option Thrown) :
    ∃ call, (s.evaluate fits registry throws).calls = s.calls ++ [call] ∧ call.madeAt = s.now ∧
      Served registry.config (s.evaluate fits registry throws) call := by
  rw [State.evaluate]
  cases hhit : s.hit registry with
  | some cached => exact ⟨_, rfl, rfl, cached_served hrun hhit _⟩
  | none =>
    cases hslot : s.inFlight with
    | some i =>
      obtain ⟨f, hf, _⟩ := (coherent_of_run hrun).slot i hslot
      rw [State.shared, List.getElem?_map] at hf
      obtain ⟨pass, hpass, _⟩ := Option.map_eq_some_iff.mp hf
      exact ⟨_, rfl, rfl, .shared pass hpass ((in_flight_iff hrun hpass).mpr hslot) rfl⟩
    | none => exact ⟨_, rfl, rfl, .shared _ List.getElem?_concat_length rfl rfl⟩

theorem evaluate_total (hread : Along (step fits registry) (Event.Readable fits registry) {} events)
    (hrun : run (step fits registry) {} events = some s) :
    Evaluates fits registry s ∧ ∀ (check : HealthCheck) (error : Thrown),
      (caught fits check error = .rejected ↔ ¬ error.Readable fits) ∧
      ∀ other : Thrown, other.isError = error.isError → other.name = error.name →
        runOne fits check (.threw other) = runOne fits check (.threw error) ∧
        runOne fits check (.settled (.rejected other)) = runOne fits check (.settled (.rejected error)) := by
  have hsound := sound_of_run hrun
  have hfulfils := fulfils_of_run hread hrun
  refine ⟨?_, fun check error => ⟨caught_eq_rejected, fun other herror hname => ?_⟩⟩
  case refine_2 =>
    have hcaught : caught fits check other = caught fits check error := caught_congr herror hname
    exact ⟨hcaught, hcaught⟩
  constructor
  case never_rejects => exact fun call _ => returned_ne_rejected hsound hfulfils call
  case deadlines => exact fun i k pass current hpass hcurrent => expire_enabled hsound hpass hcurrent
  case gathers => exact fun i pass => gather_enabled hsound hfulfils
  case completes =>
    intro i pass hpass hdone
    obtain ⟨evaluated, events, t, h⟩ := completion_of_sound hsound hfulfils hpass hdone
    exact ⟨events, t, h.stages, h.ran, fun call _ hcall => h.returned hcall⟩
  case results =>
    intro pass hmem
    refine ⟨(hsound pass hmem).checks, fun gathered hgathered => ?_⟩
    obtain ⟨evaluated, hevaluated⟩ := (hsound pass hmem).fulfilled (hfulfils pass hmem) hgathered
    have hall : pass.all = .fulfilled evaluated := ((hsound pass hmem).gathered gathered hgathered).2.trans hevaluated
    exact ⟨evaluated, hevaluated, results_of_outcomes (hsound pass hmem).runs (Promise.all_eq_fulfilled.mp hall)⟩
  case single_flight => exact fun i pass hpass => in_flight_iff hrun hpass
  case fresh => exact evaluate_served hrun

def pair : HealthRegistry where
  checks := [{ name := utf16 "a", critical := true }, { name := utf16 "b", critical := false }]
  config := {}

def oneThrows : List Event :=
  [.evaluate fun k => if k = 0 then some typeError else none, .wait 2000, .expire 0 1, .gather 0, .store 0, .finish 0]

theorem evaluate_total_pair :
    ∃ s, run (step (fun _ => false) pair) {} oneThrows = some s ∧ Evaluates (fun _ => false) pair s := by
  have hread : Along (step (fun _ => false) pair) (Event.Readable (fun _ => false) pair) {} oneThrows := by
    refine Along.cons rfl ?_ (.cons rfl trivial (.cons rfl trivial (.cons rfl trivial (.cons rfl trivial
      (.cons rfl trivial trivial)))))
    intro _ _ k error _ hthrows
    obtain ⟨-, rfl⟩ : k = 0 ∧ typeError = error := by simpa using hthrows
    have hname : typeError.name 0 = some (some (.string (utf16 "TypeError"))) := rfl
    exact .named (utf16 "TypeError") (some (.string (utf16 "TypeError"))) _ _ rfl hname hname nofun hname rfl
  exact ⟨_, rfl, (evaluate_total hread rfl).1⟩

def nameless : Thrown where
  isError := some true
  name _ := none
  message := []

theorem evaluate_rejects : ∃ s call,
    run (step (fun _ => false) { checks := [{ name := utf16 "a", critical := true }], config := {} }) {}
      [.evaluate fun _ => some nameless, .gather 0, .store 0, .finish 0] = some s ∧
    call ∈ s.calls ∧ s.returned call = .rejected :=
  ⟨_, _, rfl, List.mem_singleton_self _, rfl⟩

end HomelabApps.Health
