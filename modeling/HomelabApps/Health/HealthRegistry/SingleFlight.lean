import HomelabApps.Health.HealthRegistry

/-! The registry is a cache that one shared fetch fills, and nothing invalidates it. -/

namespace HomelabApps.Health

open HomelabApps.Library
open HomelabApps.Library.Json (Value)
open HomelabApps.Library.SharedFetch (Source Coherent)
open HomelabApps.Library.Transition (run invariant)

def outcome : Promise (List EvaluatedCheck) → Except Unit HealthEvaluation
  | .fulfilled evaluated => .ok (evaluation evaluated)
  | _ => .error ()

def source (config : ResolvedHealthConfig) :
    Source (Promise (List EvaluatedCheck)) Unit HealthEvaluation HealthEvaluation Nat where
  receive _ _ evaluated := some (outcome evaluated)
  value := id
  expiry now _ := some now
  usable now _ time := time.any fun time => now - time < config.cacheTtlMs
  lapses {t u _ x} hle h := by
    cases x with
    | none => cases h
    | some time =>
      have hlt : u - time < config.cacheTtlMs := of_decide_eq_true h
      exact decide_eq_true (Nat.lt_of_le_of_lt (Nat.sub_le_sub_right hle time) hlt)

def Gathered.reply (gathered : Gathered) : SharedFetch.Reply (Promise (List EvaluatedCheck)) Unit HealthEvaluation where
  receivedAt := gathered.time
  answer := gathered.evaluated
  outcome := outcome gathered.evaluated

def Pass.fetch (pass : Pass) : SharedFetch.Fetch (Promise (List EvaluatedCheck)) Unit HealthEvaluation where
  requestEpoch := 0
  startedAt := pass.startedAt
  reply := pass.gathered.map Gathered.reply
  resumedAt := pass.storedAt
  settled := pass.finished

def Cached.kept (cached : Cached) : SharedFetch.Kept HealthEvaluation := ⟨cached.pass, cached.value⟩

def State.shared (s : State) :
    SharedFetch.State (Promise (List EvaluatedCheck)) Unit HealthEvaluation HealthEvaluation Nat where
  now := s.now
  cache := {
    cached := s.cached.map Cached.kept
    expiresAt := s.cached.map (·.time)
    inFlight := s.inFlight
    inFlightEpoch := s.inFlight.map fun _ => 0 }
  fetches := s.passes.map Pass.fetch
  calls := s.calls

variable {fits : Value → Bool} {registry : HealthRegistry} {s t : State} {pass : Pass} {i k : Nat}
  {f : Pass → Run → Option Run}

theorem updateRun_some (h : s.updateRun i k f = some t) :
    ∃ pass current next, s.passes[i]? = some pass ∧ pass.runs[k]? = some current ∧ f pass current = some next ∧
      t = { s with passes := s.passes.set i { pass with runs := pass.runs.set k next } } := by
  obtain ⟨pass, hpass, h⟩ := Option.bind_eq_some_iff.mp h
  obtain ⟨current, hcurrent, h⟩ := Option.bind_eq_some_iff.mp h
  obtain ⟨next, hnext, rfl⟩ := Option.map_eq_some_iff.mp h
  exact ⟨pass, current, next, hpass, hcurrent, hnext, rfl⟩

theorem gather_some (h : s.gather i = some t) :
    ∃ pass, s.passes[i]? = some pass ∧ pass.gathered = none ∧ pass.all ≠ .pending ∧
      t = { s with passes := s.passes.set i { pass with gathered := some { time := s.now, evaluated := pass.all } } } := by
  obtain ⟨pass, hpass, h⟩ := Option.bind_eq_some_iff.mp h
  split at h
  · cases h
  · cases h
  · rename_i hgathered hall
    exact ⟨pass, hpass, hgathered, fun hpending => hall hpending, (Option.some.inj h).symm⟩

theorem store_some (h : s.store i = some t) :
    ∃ pass gathered, s.passes[i]? = some pass ∧ pass.storedAt = none ∧ pass.gathered = some gathered ∧
      t = { s with
        cached := gathered.cached s.now i s.cached
        passes := s.passes.set i { pass with storedAt := some s.now } } := by
  obtain ⟨pass, hpass, h⟩ := Option.bind_eq_some_iff.mp h
  split_ifs at h with hstored
  obtain ⟨gathered, hgathered, rfl⟩ := Option.map_eq_some_iff.mp h
  exact ⟨pass, gathered, hpass, Option.not_isSome_iff_eq_none.mp hstored, hgathered, rfl⟩

theorem finish_some (h : s.finish i = some t) :
    ∃ pass, s.passes[i]? = some pass ∧ pass.storedAt ≠ none ∧ pass.finished = false ∧
      t = { s with inFlight := none, passes := s.passes.set i { pass with finished := true } } := by
  obtain ⟨pass, hpass, h⟩ := Option.bind_eq_some_iff.mp h
  split_ifs at h with hguard
  obtain ⟨hstored, hfinished⟩ : pass.storedAt ≠ none ∧ pass.finished = false := by simpa using hguard
  exact ⟨pass, hpass, hstored, hfinished, (Option.some.inj h).symm⟩

theorem getElem?_fetches (h : s.passes[i]? = some pass) : s.shared.fetches[i]? = some pass.fetch := by
  rw [State.shared, List.getElem?_map, h, Option.map_some]

theorem shared_updateRun (h : s.updateRun i k f = some t) : t.shared = s.shared := by
  obtain ⟨pass, current, next, hpass, _, _, rfl⟩ := updateRun_some h
  obtain ⟨hi, hget⟩ := List.getElem?_eq_some_iff.mp hpass
  have hset : (s.passes.set i { pass with runs := pass.runs.set k next }).map Pass.fetch = s.passes.map Pass.fetch := by
    rw [List.map_set]
    apply List.ext_getElem?
    intro j
    rw [List.getElem?_set]
    split_ifs with hij hlt
    · rw [← hij, List.getElem?_map, hpass]
      rfl
    · rw [List.length_map] at hlt
      exact absurd hi hlt
    · rfl
  rw [State.shared, hset]
  rfl

theorem hit_shared : s.shared.cache.hit (source registry.config) s.shared.now = (s.hit registry).map Cached.kept := by
  rw [SharedFetch.Cache.hit, State.hit, State.shared]
  cases s.cached with
  | none => rfl
  | some cached =>
    simp only [Option.map_some, Option.filter_some, source, Option.any_some]
    split_ifs <;> rfl

theorem shared_shared : s.shared.cache.shared = s.inFlight := by
  rw [SharedFetch.Cache.shared, State.shared]
  cases s.inFlight <;> rfl

theorem shared_evaluate (throws : Nat → Option Thrown) :
    (s.evaluate fits registry throws).shared = s.shared.get (source registry.config) := by
  rw [State.evaluate, SharedFetch.State.get, hit_shared, shared_shared]
  cases s.hit registry with
  | some cached => rfl
  | none =>
    cases hslot : s.inFlight with
    | some pass => simp [State.shared, hslot]
    | none => simp [State.shared, SharedFetch.Cache.start, Pass.fetch, HealthRegistry.runAll]

theorem shared_store (gathered : Gathered) (now i : Nat) :
    gathered.reply.resume (source registry.config) s.shared.cache i 0 now =
      { s.shared.cache with
        cached := (gathered.cached now i s.cached).map Cached.kept
        expiresAt := (gathered.cached now i s.cached).map (·.time) } := by
  rw [SharedFetch.Reply.resume, Gathered.reply, Gathered.cached]
  cases gathered.evaluated <;> rfl

theorem shared_finish : s.shared.cache.release 0 = { s with inFlight := none }.shared.cache := by
  rw [SharedFetch.Cache.release, State.shared, State.shared]
  cases s.inFlight <;> rfl

theorem step_refines {e : Event} (h : step fits registry s e = some t) :
    ∃ events, run (SharedFetch.step (source registry.config)) s.shared events = some t.shared := by
  cases e with
  | evaluate throws =>
    cases h
    refine ⟨[.get], ?_⟩
    rw [shared_evaluate]
    rfl
  | wait duration =>
    cases h
    exact ⟨[.pass duration], rfl⟩
  | settle i k settlement => exact ⟨[], congrArg some (shared_updateRun h).symm⟩
  | expire i k => exact ⟨[], congrArg some (shared_updateRun h).symm⟩
  | gather i =>
    obtain ⟨pass, hpass, hgathered, _, rfl⟩ := gather_some h
    refine ⟨[.receive i pass.all], ?_⟩
    simp only [run, SharedFetch.step, getElem?_fetches hpass]
    simp [Pass.fetch, hgathered, source, State.shared, Gathered.reply, List.map_set]
  | store i =>
    obtain ⟨pass, gathered, hpass, hstored, hgathered, rfl⟩ := store_some h
    refine ⟨[.resume i], ?_⟩
    simp only [run, SharedFetch.step, getElem?_fetches hpass]
    simp only [Pass.fetch, hgathered, hstored, Option.isSome_none, Option.map_some, shared_store]
    simp [State.shared, List.map_set, Pass.fetch]
  | finish i =>
    obtain ⟨pass, hpass, hstored, hfinished, rfl⟩ := finish_some h
    refine ⟨[.settle i], ?_⟩
    simp only [run, SharedFetch.step, getElem?_fetches hpass]
    simp only [Pass.fetch, hfinished, shared_finish]
    simp [State.shared, List.map_set, Pass.fetch, hstored]

theorem coherent_of_run {events : List Event} (hrun : run (step fits registry) {} events = some s) :
    Coherent (source registry.config) s.shared := by
  refine invariant (I := fun s => Coherent (source registry.config) s.shared) (fun s e t hs hstep => ?_)
    SharedFetch.coherent_start hrun
  obtain ⟨steps, hsteps⟩ := step_refines hstep
  exact invariant (fun _ _ _ h hstep => SharedFetch.coherent_step h hstep) hs hsteps

end HomelabApps.Health
