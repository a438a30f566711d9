import HomelabApps.Health.HealthRegistry.SingleFlight

namespace HomelabApps.Health

open HomelabApps.Library
open HomelabApps.Library.Utf16
open HomelabApps.Library.Json (Value)
open HomelabApps.Library.Transition (run invariant)

variable {fits : Value → Bool} {registry : HealthRegistry} {s t : State} {pass : Pass} {current next : Run}
  {check : HealthCheck} {behaviour : Behaviour} {error : Thrown} {e : EvaluatedCheck} {i k : Nat}

inductive Thrown.Readable (fits : Value → Bool) (error : Thrown) : Prop
  | other : error.isError = some false → Readable fits error
  | unnamed (first : Option Value) : error.isError = some true → error.name 0 = some first →
      (∀ text, first ≠ some (.string text)) → Readable fits error
  | empty (text : JsString) : error.isError = some true → error.name 0 = some (some (.string text)) →
      error.name 1 = some (some (.string [])) → Readable fits error
  | named (text : JsString) (second third : Option Value) (detail : Value) : error.isError = some true →
      error.name 0 = some (some (.string text)) → error.name 1 = some second → second ≠ some (.string []) →
      error.name 2 = some third → truncate fits third = .ok detail → Readable fits error

def Behaviour.Readable (fits : Value → Bool) : Behaviour → Prop
  | .threw error => error.Readable fits
  | .settled (.rejected error) => error.Readable fits
  | .settled (.resolved result) => ∀ error, sanitise fits result = .error error → error.Readable fits
  | .expired => True

inductive Concludes (check : HealthCheck) : Promise EvaluatedCheck → Prop
  | fulfilled {e : EvaluatedCheck} : e.check = check → Concludes check (.fulfilled e)
  | rejected : Concludes check .rejected

theorem Concludes.settled {promise : Promise EvaluatedCheck} (h : Concludes check promise) : promise ≠ .pending := by
  cases h with
  | fulfilled _ => nofun
  | rejected => nofun

theorem caught_concludes (check : HealthCheck) (error : Thrown) : Concludes check (caught fits check error) := by
  rw [caught]
  split
  · exact .fulfilled rfl
  · exact .rejected

theorem settle_concludes (fits : Value → Bool) (check : HealthCheck) (settlement : Settlement) :
    Concludes check (settle fits check settlement) := by
  cases settlement with
  | resolved result =>
    rw [settle]
    split
    · exact .fulfilled rfl
    · exact caught_concludes check _
  | rejected error => exact caught_concludes check error

theorem runOne_concludes (fits : Value → Bool) (check : HealthCheck) (behaviour : Behaviour) :
    Concludes check (runOne fits check behaviour) := by
  cases behaviour with
  | threw error => exact caught_concludes check error
  | settled settlement => exact settle_concludes fits check settlement
  | expired => exact settle_concludes fits check (.resolved timeout)

theorem caught_congr {other : Thrown} (herror : other.isError = error.isError) (hname : other.name = error.name) :
    caught fits check other = caught fits check error := by
  rw [caught, caught, Thrown.nameOf, Thrown.nameOf, herror, hname]

theorem caught_readable (h : error.Readable fits) : caught fits check error ≠ .rejected := by
  cases h with
  | other hother => simp [caught, Thrown.nameOf, hother, truncate]
  | unnamed first herror hfirst hno =>
    have hname : error.nameOf = some (some (.string (utf16 "Error"))) := by
      rw [Thrown.nameOf]
      simp only [herror, hfirst]
    simp [caught, hname, truncate]
  | empty text herror hfirst hsecond => simp [caught, Thrown.nameOf, herror, hfirst, hsecond, truncate]
  | named text second third detail herror hfirst hsecond hne hthird hdetail =>
    have hname : error.nameOf = some third := by
      rw [Thrown.nameOf, herror, hfirst, hsecond]
      simp only
      exact hthird
    simp [caught, hname, hdetail]

theorem readable_of_caught (h : caught fits check error ≠ .rejected) : error.Readable fits := by
  rw [caught] at h
  split at h
  · rename_i detail hdetail
    obtain ⟨name, hname, htruncate⟩ := Option.map_eq_some_iff.mp hdetail
    rw [Thrown.nameOf] at hname
    split at hname
    · cases hname
    · rename_i hother
      exact .other hother
    · rename_i herror
      split at hname
      · cases hname
      · rename_i text hfirst
        split at hname
        · cases hname
        · rename_i hsecond
          exact .empty text herror hfirst hsecond
        · rename_i second hne hsecond
          exact .named text second name detail herror hfirst hsecond hne hname htruncate
      · rename_i first hno hfirst
        exact .unnamed first herror hfirst hno
  · exact absurd rfl h

theorem caught_eq_rejected : caught fits check error = .rejected ↔ ¬ error.Readable fits := by
  constructor
  · exact fun h hread => caught_readable hread h
  · intro h
    by_contra hcaught
    exact h (readable_of_caught hcaught)

theorem runOne_readable (h : behaviour.Readable fits) : runOne fits check behaviour ≠ .rejected := by
  cases behaviour with
  | threw error => exact caught_readable h
  | settled settlement =>
    cases settlement with
    | resolved result =>
      rw [runOne, settle]
      cases hsanitise : sanitise fits result with
      | ok result => nofun
      | error error => exact caught_readable (h error hsanitise)
    | rejected error => exact caught_readable h
  | expired => nofun

structure Run.Sound (fits : Value → Bool) (current : Run) : Prop where
  outcome : current.outcome = (current.behaviours.head?.map (runOne fits current.check)).getD .pending
  armed : current.behaviours = [] → current.armed = true

structure Run.Advances (fits : Value → Bool) (current next : Run) : Prop where
  check : next.check = current.check
  extends_outcome : current.outcome.Extends next.outcome
  sound : current.Sound fits → next.Sound fits

theorem Run.meet_advances (fits : Value → Bool) (current : Run) (behaviour : Behaviour) :
    current.Advances fits (current.meet fits behaviour) where
  check := rfl
  extends_outcome := Promise.extends_race _ _
  sound h := by
    refine ⟨?_, fun hnone => absurd hnone (by simp [Run.meet])⟩
    cases hbehaviours : current.behaviours with
    | nil => simp [Run.meet, h.outcome, hbehaviours]
    | cons first rest =>
      have hsettled : current.outcome ≠ .pending := by
        rw [h.outcome, hbehaviours]
        exact (runOne_concludes fits current.check first).settled
      rw [Run.meet, Promise.race_of_settled hsettled, h.outcome, hbehaviours]
      rfl

theorem Run.settle_some {settlement : Settlement} (h : current.settle fits settlement = some next) :
    next = Run.meet fits { current with pending := false } (.settled settlement) := by
  rw [Run.settle] at h
  split_ifs at h
  exact (Option.some.inj h).symm

theorem Run.expire_some (h : current.expire fits = some next) : next = current.meet fits .expired := by
  rw [Run.expire] at h
  split_ifs at h
  exact (Option.some.inj h).symm

theorem Run.settle_advances {settlement : Settlement} (h : current.settle fits settlement = some next) :
    current.Advances fits next := by
  rw [Run.settle_some h]
  have hmeet := Run.meet_advances fits { current with pending := false } (.settled settlement)
  exact ⟨hmeet.check, hmeet.extends_outcome, fun h => hmeet.sound ⟨h.outcome, h.armed⟩⟩

theorem Run.start_sound (check : HealthCheck) (throws : Option Thrown) : (Run.start fits check throws).Sound fits := by
  cases throws with
  | none => exact ⟨rfl, fun _ => rfl⟩
  | some error => exact (Run.meet_advances fits _ _).sound ⟨rfl, fun _ => rfl⟩

theorem Run.start_check (check : HealthCheck) (throws : Option Thrown) : (Run.start fits check throws).check = check := by
  cases throws <;> rfl

theorem Run.Sound.pending_iff (h : current.Sound fits) : current.outcome = .pending ↔ current.behaviours = [] := by
  rw [h.outcome]
  cases current.behaviours with
  | nil => exact iff_of_true rfl rfl
  | cons first rest => exact iff_of_false (runOne_concludes fits current.check first).settled (List.cons_ne_nil _ _)

structure Pass.Sound (fits : Value → Bool) (registry : HealthRegistry) (pass : Pass) : Prop where
  checks : pass.runs.map (·.check) = registry.checks
  runs : ∀ current ∈ pass.runs, current.Sound fits
  gathered : ∀ gathered, pass.gathered = some gathered → gathered.evaluated ≠ .pending ∧ pass.all = gathered.evaluated
  stored : pass.storedAt ≠ none → pass.gathered ≠ none
  finished : pass.finished = true → pass.storedAt ≠ none

theorem Pass.Sound.runAll (throws : Nat → Option Thrown) (now : Nat) :
    Pass.Sound fits registry (registry.runAll fits throws now) where
  checks := by
    rw [HealthRegistry.runAll]
    apply List.ext_getElem?
    intro k
    rw [List.getElem?_map, List.getElem?_mapIdx]
    cases registry.checks[k]? with
    | none => rfl
    | some check => exact congrArg some (Run.start_check check _)
  runs := by
    intro current hcurrent
    obtain ⟨k, hk, rfl⟩ := List.mem_mapIdx.mp hcurrent
    exact Run.start_sound _ _
  gathered _ h := by cases h
  stored h := absurd rfl h
  finished h := by cases h

theorem all_set (hcurrent : pass.runs[k]? = some current) (h : current.Advances fits next) :
    pass.all.Extends { pass with runs := pass.runs.set k next }.all := by
  apply Promise.all_extends
  rw [List.forall₂_iff_get]
  refine ⟨by simp, fun j hj hset => ?_⟩
  obtain ⟨hk, rfl⟩ := List.getElem?_eq_some_iff.mp hcurrent
  simp only [List.get_eq_getElem, List.getElem_map, List.getElem_set]
  split_ifs with hkj
  · subst hkj
    exact h.extends_outcome
  · exact Promise.Extends.refl _

theorem Pass.Sound.set (hpass : pass.Sound fits registry) (hcurrent : pass.runs[k]? = some current)
    (h : current.Advances fits next) : Pass.Sound fits registry { pass with runs := pass.runs.set k next } where
  checks := by
    obtain ⟨hk, rfl⟩ := List.getElem?_eq_some_iff.mp hcurrent
    rw [List.map_set, h.check, ← hpass.checks]
    have hmap : (pass.runs.map (·.check))[k]? = some pass.runs[k].check := by rw [List.getElem?_map, hcurrent, Option.map_some]
    obtain ⟨hlt, hget⟩ := List.getElem?_eq_some_iff.mp hmap
    rw [← hget, List.set_getElem_self]
  runs other hother := by
    obtain hother | rfl := List.mem_or_eq_of_mem_set hother
    · exact hpass.runs other hother
    · exact h.sound (hpass.runs current (List.mem_of_getElem? hcurrent))
  gathered gathered hgathered := by
    obtain ⟨hsettled, hall⟩ := hpass.gathered gathered hgathered
    exact ⟨hsettled, (all_set hcurrent h (hall ▸ hsettled)).trans hall⟩
  stored := hpass.stored
  finished := hpass.finished

def State.Sound (fits : Value → Bool) (registry : HealthRegistry) (s : State) : Prop :=
  ∀ pass ∈ s.passes, pass.Sound fits registry

theorem State.Sound.set {p : Pass} (h : s.Sound fits registry) (hp : p.Sound fits registry) :
    ∀ pass ∈ s.passes.set i p, pass.Sound fits registry := by
  intro pass hpass
  obtain hpass | rfl := List.mem_or_eq_of_mem_set hpass
  · exact h pass hpass
  · exact hp

theorem State.Sound.updateRun {f : Pass → Run → Option Run} (h : s.Sound fits registry)
    (hupdate : s.updateRun i k f = some t)
    (hf : ∀ pass current next, f pass current = some next → current.Advances fits next) : t.Sound fits registry := by
  obtain ⟨pass, current, next, hpass, hcurrent, hnext, rfl⟩ := updateRun_some hupdate
  exact h.set ((h pass (List.mem_of_getElem? hpass)).set hcurrent (hf pass current next hnext))

theorem Run.expire_advances (h : current.expire fits = some next) : current.Advances fits next := by
  rw [Run.expire_some h]
  exact Run.meet_advances fits current .expired

theorem sound_evaluate (h : s.Sound fits registry) (throws : Nat → Option Thrown) :
    (s.evaluate fits registry throws).Sound fits registry := by
  rw [State.evaluate]
  split
  · exact h
  · split
    · exact h
    · intro pass hpass
      obtain hpass | hpass := List.mem_append.mp hpass
      · exact h pass hpass
      · rw [List.mem_singleton.mp hpass]
        exact Pass.Sound.runAll throws s.now

theorem sound_step {event : Event} (h : s.Sound fits registry) (hstep : step fits registry s event = some t) :
    t.Sound fits registry := by
  cases event with
  | evaluate throws =>
    cases hstep
    exact sound_evaluate h throws
  | wait duration =>
    cases hstep
    exact h
  | settle i k settlement => exact h.updateRun hstep fun _ _ _ => Run.settle_advances
  | expire i k =>
    refine h.updateRun hstep fun pass current next hnext => ?_
    split_ifs at hnext
    exact Run.expire_advances hnext
  | gather i =>
    obtain ⟨pass, hpass, _, hall, rfl⟩ := gather_some hstep
    have hsound := h pass (List.mem_of_getElem? hpass)
    refine h.set { hsound with gathered := ?_, stored := fun _ => nofun }
    rintro gathered ⟨⟩
    exact ⟨hall, rfl⟩
  | store i =>
    obtain ⟨pass, gathered, hpass, _, hgathered, rfl⟩ := store_some hstep
    have hsound := h pass (List.mem_of_getElem? hpass)
    exact h.set { hsound with stored := fun _ => hgathered ▸ nofun, finished := fun _ => nofun }
  | finish i =>
    obtain ⟨pass, hpass, hstored, _, rfl⟩ := finish_some hstep
    have hsound := h pass (List.mem_of_getElem? hpass)
    exact h.set { hsound with finished := fun _ => hstored }

theorem sound_of_run {events : List Event} (hrun : run (step fits registry) {} events = some s) :
    s.Sound fits registry :=
  invariant (fun _ _ _ h hstep => sound_step h hstep) (fun _ hpass => by cases hpass) hrun

end HomelabApps.Health
