import HomelabApps.HttpProvider.CredentialCache
import HomelabApps.HttpProvider.HttpProviderFactory
import HomelabApps.Resilience.ResiliencePolicy.Cancellation
import Mathlib.Algebra.Order.BigOperators.Group.List
import Mathlib.Algebra.Order.Ring.Nat

namespace HomelabApps.HttpProvider

open HomelabApps.Library
open HomelabApps.Library.SharedFetch (Call Coherent)
open HomelabApps.Library.Transition
open HomelabApps.Library.Utf16 (JsString)
open HomelabApps.Resilience (ResiliencePolicy)

variable {Answer Failure Result Value Expiry Response : Type} {provider : Provider Answer Failure Result Value Expiry}
  {s t : State Answer Failure Result Value Expiry Response} {r : Request Value Response} {i : Nat} {asked : Asked}
  {sent : Sent Value Response} {events : List (Event Answer Response)}

def Stage.asks : Stage Value Response → List Asked
  | .requested => []
  | .asked asked => [asked]
  | .sent sent => [sent.asked]
  | .settled => []

def Stage.waits : Stage Value Response → Bool
  | .settled => false
  | _ => true

structure Asked.Sound (s : State Answer Failure Result Value Expiry Response) (asked : Asked) : Prop where
  generation : asked.authGeneration ≤ s.generation
  epoch : asked.epoch ≤ s.strategy.cache.cacheEpoch
  stale : asked.authGeneration < s.generation → asked.epoch < s.strategy.cache.cacheEpoch
  served : ∃ call f, s.strategy.calls[asked.call]? = some call ∧ s.strategy.fetches[call.fetch]? = some f ∧
    f.requestEpoch = asked.epoch

structure Sent.Sound (provider : Provider Answer Failure Result Value Expiry)
    (s : State Answer Failure Result Value Expiry Response) (retries : Nat) (sent : Sent Value Response) : Prop where
  provided : Provides provider.source s.strategy sent.fetch sent.credentials
  served : ∃ f, s.strategy.fetches[sent.fetch]? = some f ∧ f.requestEpoch = sent.asked.epoch
  applied : applyTransport provider.transport (provider.credentials sent.credentials) = .ok sent.applied
  adapter : sent.adapter = .wrapped .base
  execution : sent.execution.Sound provider.policy
  retries : sent.execution.maxRetries = retries

def Sent.Unauthorized (sent : Sent Value Response) : Prop :=
  ∃ outcome, sent.execution.stage = .settled outcome ∧ isUnauthorized outcome = true

def RequestConfig.Wraps (config : RequestConfig) (stage : Stage Value Response) : Prop :=
  config.resilienceBaseAdapter = some .base ∧ config.adapter = some (.wrapped .base) ∨
    stage = .requested ∧ config.resilienceBaseAdapter = none ∧ config.adapter = none

structure Request.Sound (provider : Provider Answer Failure Result Value Expiry)
    (s : State Answer Failure Result Value Expiry Response) (r : Request Value Response) : Prop where
  wraps : r.config.Wraps r.stage
  asks : ∀ asked ∈ r.stage.asks, asked.Sound s
  sends : ∀ sent ∈ r.sends, sent.Sound provider s (provider.retries r.config)
  fresh : r.config.retried = false → r.handled.length ≤ 1 ∧ (r.stage.waits = true → r.handled = [])
  retried : r.config.retried = true → ∃ first rest, r.handled = first :: rest ∧ first.Unauthorized ∧
    first.asked.epoch < s.strategy.cache.cacheEpoch ∧ rest.length ≤ 1 ∧ (r.stage.waits = true → rest = []) ∧
    ∀ asked ∈ rest.map (fun sent => sent.asked) ++ r.stage.asks, first.asked.epoch < asked.epoch
  dropped : ∀ first ∈ r.handled.head?, first.Unauthorized → first.asked.authGeneration < s.generation

structure State.Sound (provider : Provider Answer Failure Result Value Expiry)
    (s : State Answer Failure Result Value Expiry Response) : Prop where
  coherent : Coherent provider.source s.strategy
  refreshed : s.refreshed = List.range s.generation
  requests : ∀ r ∈ s.requests, r.Sound provider s

structure State.Onwards (s t : State Answer Failure Result Value Expiry Response) : Prop where
  fetches : s.strategy.Extends t.strategy
  calls : s.strategy.calls <+: t.strategy.calls
  epoch : s.strategy.cache.cacheEpoch ≤ t.strategy.cache.cacheEpoch
  generation : s.generation ≤ t.generation
  stale : s.generation < t.generation → s.strategy.cache.cacheEpoch < t.strategy.cache.cacheEpoch

theorem State.Onwards.of_strategy (h : t.strategy = s.strategy) (hg : t.generation = s.generation) : s.Onwards t where
  fetches := h ▸ SharedFetch.State.Extends.refl _
  calls := h ▸ List.prefix_rfl
  epoch := h ▸ Nat.le_refl _
  generation := Nat.le_of_eq hg.symm
  stale hlt := absurd hlt (by omega)

theorem Asked.Sound.onwards (h : asked.Sound s) (ht : s.Onwards t) : asked.Sound t where
  generation := Nat.le_trans h.generation ht.generation
  epoch := Nat.le_trans h.epoch ht.epoch
  stale hlt := by
    obtain heq | hlt := Nat.eq_or_lt_of_le h.generation
    · exact Nat.lt_of_le_of_lt h.epoch (ht.stale (heq ▸ hlt))
    · exact Nat.lt_of_lt_of_le (h.stale hlt) ht.epoch
  served := by
    obtain ⟨call, f, hcall, hf, hepoch⟩ := h.served
    obtain ⟨g, hg, hgrows⟩ := ht.fetches call.fetch f hf
    refine ⟨call, g, ?_, hg, hgrows.requestEpoch.trans hepoch⟩
    obtain ⟨later, hlater⟩ := ht.calls
    rw [← hlater, List.getElem?_append_left (List.getElem?_eq_some_iff.mp hcall).1]
    exact hcall

theorem Provides.extends {source : SharedFetch.Source Answer Failure Result Value Expiry}
    {before after : SharedFetch.State Answer Failure Result Value Expiry} {fetch : Nat} {credentials : Value}
    (h : Provides source before fetch credentials) (hext : before.Extends after) :
    Provides source after fetch credentials := by
  obtain ⟨f, reply, result, hf, hreply, houtcome, hvalue⟩ := h
  obtain ⟨g, hg, hgrows⟩ := hext fetch f hf
  exact ⟨g, reply, result, hg, hgrows.reply reply hreply, houtcome, hvalue⟩

theorem Sent.Sound.onwards {retries : Nat} (h : sent.Sound provider s retries) (ht : s.Onwards t) :
    sent.Sound provider t retries where
  provided := h.provided.extends ht.fetches
  served := by
    obtain ⟨f, hf, hepoch⟩ := h.served
    obtain ⟨g, hg, hgrows⟩ := ht.fetches sent.fetch f hf
    exact ⟨g, hg, hgrows.requestEpoch.trans hepoch⟩
  applied := h.applied
  adapter := h.adapter
  execution := h.execution
  retries := h.retries

theorem Request.Sound.onwards (h : r.Sound provider s) (ht : s.Onwards t) : r.Sound provider t where
  wraps := h.wraps
  asks asked hasked := (h.asks asked hasked).onwards ht
  sends sent hsent := (h.sends sent hsent).onwards ht
  fresh := h.fresh
  retried hretried := by
    obtain ⟨first, rest, hhandled, hunauthorized, hepoch, hrest⟩ := h.retried hretried
    exact ⟨first, rest, hhandled, hunauthorized, Nat.lt_of_lt_of_le hepoch ht.epoch, hrest⟩
  dropped first hfirst hunauthorized := Nat.lt_of_lt_of_le (h.dropped first hfirst hunauthorized) ht.generation

theorem requests_set {r' : Request Value Response} (h : ∀ r ∈ s.requests, r.Sound provider s) (ht : s.Onwards t)
    (hrequests : t.requests = s.requests.set i r') (hr : r'.Sound provider t) :
    ∀ r ∈ t.requests, r.Sound provider t := by
  intro r hmem
  rw [hrequests] at hmem
  obtain hmem | rfl := List.mem_or_eq_of_mem_set hmem
  · exact (h r hmem).onwards ht
  · exact hr

inductive State.Moves (provider : Provider Answer Failure Result Value Expiry)
    (s : State Answer Failure Result Value Expiry Response) : State Answer Failure Result Value Expiry Response → Prop
  | request (method : Option HttpMethod) (retry : Option Bool) :
      Moves provider s { s with requests := s.requests ++ [{ config := { method, retry } }] }
  | strategy {event : SharedFetch.Event Answer} {strategy : SharedFetch.State Answer Failure Result Value Expiry} :
      SharedFetch.step provider.source s.strategy event = some strategy → Moves provider s { s with strategy }
  | ask {i : Nat} {r : Request Value Response} : s.requests[i]? = some r → r.stage = .requested →
      Moves provider s (s.ask provider i r)
  | refused {i : Nat} {r : Request Value Response} {asked : Asked} : s.requests[i]? = some r → r.stage = .asked asked →
      Moves provider s (s.put i { r with stage := .settled })
  | rejected {i : Nat} {r : Request Value Response} {asked : Asked} : s.requests[i]? = some r → r.stage = .asked asked →
      Moves provider s (s.invalidate.put i { r with stage := .settled })
  | sent {i : Nat} {r : Request Value Response} {asked : Asked} {call : Call Value} {credentials : Value}
      {applied : Applied} (parentAborted : Option Bool) : s.requests[i]? = some r → r.stage = .asked asked →
      s.strategy.calls[asked.call]? = some call → s.strategy.returned provider.source call = some (.ok credentials) →
      applyTransport provider.transport (provider.credentials credentials) = .ok applied →
      Moves provider s (s.put i { r with
        stage := .sent
          { asked, fetch := call.fetch, credentials, applied
            adapter := r.config.adapter.getD .base
            execution := provider.policy.execute parentAborted (mayRetry r.config) } })
  | policy {i : Nat} {r : Request Value Response} {sent : Sent Value Response}
      {event : Resilience.Event AxiosError Response} {execution : Resilience.Execution AxiosError Response} :
      s.requests[i]? = some r → r.stage = .sent sent → provider.policy.step sent.execution event = some execution →
      Moves provider s (s.put i { r with stage := .sent { sent with execution } })
  | handle {i : Nat} {r : Request Value Response} {sent : Sent Value Response}
      {outcome : Resilience.Outcome AxiosError Response} : s.requests[i]? = some r → r.stage = .sent sent →
      sent.execution.stage = .settled outcome → Moves provider s (s.handle i r sent outcome)

theorem send_cases {parentAborted : Option Bool} (hr : s.requests[i]? = some r) (hstage : r.stage = .asked asked)
    (h : s.send provider i r asked parentAborted = some t) : s.Moves provider t := by
  obtain ⟨call, hcall, h⟩ := Option.bind_eq_some_iff.mp h
  obtain ⟨returned, hreturned, rfl⟩ := Option.map_eq_some_iff.mp h
  cases returned with
  | error failure => exact .refused hr hstage
  | ok credentials =>
    cases happlied : applyTransport provider.transport (provider.credentials credentials) with
    | error message =>
      simp only [happlied]
      exact .rejected hr hstage
    | ok applied =>
      simp only [happlied]
      exact .sent parentAborted hr hstage hcall hreturned happlied

theorem step_cases {event : Event Answer Response} (h : step provider s event = some t) : s.Moves provider t := by
  cases event with
  | request method retry =>
    obtain rfl := Option.some.inj h
    exact .request method retry
  | strategy event =>
    simp only [step] at h
    split_ifs at h
    obtain ⟨strategy, hstep, rfl⟩ := Option.map_eq_some_iff.mp h
    exact .strategy hstep
  | ask i =>
    simp only [step] at h
    split at h
    · next r hr =>
      split at h
      · next hstage =>
        obtain rfl := Option.some.inj h
        exact .ask hr hstage
      · cases h
    · cases h
  | send i parentAborted =>
    simp only [step] at h
    split at h
    · next r hr =>
      split at h
      · next asked hstage => exact send_cases hr hstage h
      · cases h
    · cases h
  | policy i event =>
    simp only [step] at h
    split at h
    · next r hr =>
      split at h
      · next sent hstage =>
        obtain ⟨execution, hstep, rfl⟩ := Option.map_eq_some_iff.mp h
        exact .policy hr hstage hstep
      · cases h
    · cases h
  | handle i =>
    simp only [step] at h
    split at h
    · next r hr =>
      split at h
      · next sent hstage =>
        split at h
        · next outcome hsettled =>
          obtain rfl := Option.some.inj h
          exact .handle hr hstage hsettled
        · cases h
      · cases h
    · cases h

theorem State.Onwards.invalidate : s.Onwards s.invalidate where
  fetches := SharedFetch.State.Extends.refl _
  calls := List.prefix_rfl
  epoch := Nat.le_succ _
  generation := Nat.le_refl _
  stale _ := Nat.lt_succ_self _

theorem Coherent.onwards {event : SharedFetch.Event Answer}
    {strategy : SharedFetch.State Answer Failure Result Value Expiry} (h : Coherent provider.source s.strategy)
    (hstep : SharedFetch.step provider.source s.strategy event = some strategy) : s.Onwards { s with strategy } where
  fetches := (SharedFetch.step_extends hstep).1
  calls := by
    obtain hcalls | ⟨call, f, hcalls, -⟩ := SharedFetch.step_calls h hstep
    · exact hcalls ▸ List.prefix_rfl
    · exact hcalls ▸ List.prefix_append s.strategy.calls [call]
  epoch := (SharedFetch.step_extends hstep).2
  generation := Nat.le_refl _
  stale hlt := absurd hlt (Nat.lt_irrefl _)

theorem Request.Sound.settle (h : r.Sound provider s) (hstage : r.stage = .asked asked) :
    { r with stage := .settled }.Sound provider s where
  wraps := by
    obtain hwraps | ⟨hrequested, -⟩ := h.wraps
    · exact .inl hwraps
    · cases hstage.symm.trans hrequested
  asks _ hasked := absurd hasked List.not_mem_nil
  sends sent hsent := by
    apply h.sends sent
    rwa [Request.sends, hstage]
  fresh hretried := ⟨(h.fresh hretried).1, fun hwaits => by cases hwaits⟩
  retried hretried := by
    obtain ⟨first, rest, hhandled, hunauthorized, hepoch, hrest, -, hasks⟩ := h.retried hretried
    refine ⟨first, rest, hhandled, hunauthorized, hepoch, hrest, fun hwaits => (by cases hwaits), fun a ha => ?_⟩
    obtain ha | ha := List.mem_append.mp ha
    · exact hasks a (List.mem_append_left _ ha)
    · cases ha
  dropped := h.dropped

theorem State.Sound.ask (h : s.Sound provider) (hr : s.requests[i]? = some r) (hstage : r.stage = .requested) :
    (s.ask provider i r).Sound provider := by
  obtain ⟨call, f, hcalls, hf, hepoch, hcurrent⟩ := h.coherent.get_call
  have honwards : s.Onwards (s.ask provider i r) :=
    { fetches := SharedFetch.get_extends s.strategy
      calls := hcalls ▸ List.prefix_append s.strategy.calls [call]
      epoch := Nat.le_of_eq hcurrent.symm
      generation := Nat.le_refl _
      stale := fun hlt => absurd hlt (Nat.lt_irrefl _) }
  have hsound := h.requests r (List.mem_of_getElem? hr)
  refine ⟨h.coherent.get, h.refreshed, requests_set h.requests honwards rfl ?_⟩
  have hr' := hsound.onwards honwards
  constructor
  case wraps =>
    refine .inl ?_
    obtain ⟨hbase, hadapter⟩ | ⟨-, hbase, hadapter⟩ := hsound.wraps
    · simp [wrapAdapterWithPolicy, RequestConfig.baseAdapter, hbase]
    · simp [wrapAdapterWithPolicy, RequestConfig.baseAdapter, hbase, hadapter]
  case asks =>
    intro a ha
    obtain rfl := List.mem_singleton.mp ha
    refine ⟨Nat.le_refl _, Nat.le_of_eq hcurrent.symm, fun hlt => absurd hlt (Nat.lt_irrefl _), call, f, ?_, hf, hepoch⟩
    simp [State.ask, hcalls]
  case sends =>
    intro sent hsent
    apply hr'.sends sent
    rwa [Request.sends, hstage]
  case fresh =>
    intro hretried
    have hfresh := hsound.fresh hretried
    exact ⟨hfresh.1, fun _ => hfresh.2 (by rw [hstage]; rfl)⟩
  case retried =>
    intro hretried
    obtain ⟨first, rest, hhandled, hunauthorized, hlt, hrest, hnone, -⟩ := hr'.retried hretried
    obtain rfl : rest = [] := hnone (by rw [hstage]; rfl)
    refine ⟨first, [], hhandled, hunauthorized, hlt, hrest, fun _ => rfl, fun a ha => ?_⟩
    obtain rfl := List.mem_singleton.mp ha
    exact Nat.lt_of_lt_of_le hlt (Nat.le_of_eq hcurrent)
  case dropped => exact hr'.dropped

theorem Request.Sound.send {call : Call Value} {credentials : Value} {applied : Applied} (parentAborted : Option Bool)
    (h : r.Sound provider s) (hcoherent : Coherent provider.source s.strategy) (hstage : r.stage = .asked asked)
    (hcall : s.strategy.calls[asked.call]? = some call)
    (hreturned : s.strategy.returned provider.source call = some (.ok credentials))
    (happlied : applyTransport provider.transport (provider.credentials credentials) = .ok applied) :
    { r with
      stage := .sent
        { asked, fetch := call.fetch, credentials, applied
          adapter := r.config.adapter.getD .base
          execution := provider.policy.execute parentAborted (mayRetry r.config) } }.Sound provider s := by
  have hwraps : r.config.resilienceBaseAdapter = some .base ∧ r.config.adapter = some (.wrapped .base) := by
    obtain hwraps | ⟨hrequested, -⟩ := h.wraps
    · exact hwraps
    · cases hstage.symm.trans hrequested
  obtain ⟨call', f, hcall', hf, hepoch⟩ := (h.asks asked (by rw [hstage]; exact List.mem_singleton_self asked)).served
  obtain rfl : call = call' := by simpa [hcall] using hcall'
  constructor
  case wraps => exact .inl hwraps
  case asks =>
    intro a ha
    apply h.asks a
    rwa [hstage]
  case sends =>
    intro sent hsent
    obtain hsent | hsent := List.mem_append.mp hsent
    · exact h.sends sent (List.mem_append_left _ hsent)
    · obtain rfl := List.mem_singleton.mp hsent
      constructor
      case provided => exact hcoherent.returned (List.mem_of_getElem? hcall) hreturned
      case served => exact ⟨f, hf, hepoch⟩
      case applied => exact happlied
      case adapter => rw [hwraps.2, Option.getD_some]
      case execution => exact Resilience.sound_execute provider.policy parentAborted (mayRetry r.config)
      case retries =>
        rw [Resilience.maxRetries_execute, Provider.retries]
        cases mayRetry r.config <;> rfl
  case fresh =>
    intro hretried
    have hfresh := h.fresh hretried
    exact ⟨hfresh.1, fun _ => hfresh.2 (by rw [hstage]; rfl)⟩
  case retried =>
    intro hretried
    obtain ⟨first, rest, hhandled, hunauthorized, hlt, hrest, hnone, hasks⟩ := h.retried hretried
    rw [hstage] at hasks hnone
    exact ⟨first, rest, hhandled, hunauthorized, hlt, hrest, fun _ => hnone rfl, hasks⟩
  case dropped => exact h.dropped

theorem Request.Sound.policy {event : Resilience.Event AxiosError Response}
    {execution : Resilience.Execution AxiosError Response} (h : r.Sound provider s) (hstage : r.stage = .sent sent)
    (hstep : provider.policy.step sent.execution event = some execution) :
    { r with stage := .sent { sent with execution } }.Sound provider s := by
  have hmoves := Resilience.step_cases hstep
  constructor
  case wraps =>
    obtain hwraps | ⟨hrequested, -⟩ := h.wraps
    · exact .inl hwraps
    · cases hstage.symm.trans hrequested
  case asks =>
    intro a ha
    apply h.asks a
    rwa [hstage]
  case sends =>
    intro sent' hsent
    obtain hsent | hsent := List.mem_append.mp hsent
    · exact h.sends sent' (List.mem_append_left _ hsent)
    · obtain rfl := List.mem_singleton.mp hsent
      have hsound := h.sends sent (List.mem_append_right _ (by rw [hstage]; exact List.mem_singleton_self sent))
      exact { hsound with
        execution := hsound.execution.moves hmoves
        retries := (Resilience.maxRetries_moves hmoves).trans hsound.retries }
  case fresh =>
    intro hretried
    have hfresh := h.fresh hretried
    exact ⟨hfresh.1, fun _ => hfresh.2 (by rw [hstage]; rfl)⟩
  case retried =>
    intro hretried
    obtain ⟨first, rest, hhandled, hunauthorized, hlt, hrest, hnone, hasks⟩ := h.retried hretried
    rw [hstage] at hasks hnone
    exact ⟨first, rest, hhandled, hunauthorized, hlt, hrest, fun _ => hnone rfl, hasks⟩
  case dropped => exact h.dropped

theorem Request.Sound.answered (h : r.Sound provider s) (hstage : r.stage = .sent sent)
    (hlast : sent.Unauthorized → r.config.retried = true) :
    { r with stage := .settled, handled := r.handled ++ [sent] }.Sound provider s where
  wraps := by
    obtain hwraps | ⟨hrequested, -⟩ := h.wraps
    · exact .inl hwraps
    · cases hstage.symm.trans hrequested
  asks _ hasked := absurd hasked List.not_mem_nil
  sends sent' hsent := by
    apply h.sends sent'
    rw [Request.sends, hstage]
    exact (List.append_nil (r.handled ++ [sent])) ▸ hsent
  fresh hretried := by
    have hnone : r.handled = [] := (h.fresh hretried).2 (by rw [hstage]; rfl)
    exact ⟨by simp [hnone], fun hwaits => by cases hwaits⟩
  retried hretried := by
    obtain ⟨first, rest, hhandled, hunauthorized, hlt, -, hnone, hasks⟩ := h.retried hretried
    obtain rfl : rest = [] := hnone (by rw [hstage]; rfl)
    rw [hstage] at hasks
    have hhandled' : r.handled ++ [sent] = [first, sent] := by rw [hhandled, List.singleton_append]
    exact ⟨first, [sent], hhandled', hunauthorized, hlt, Nat.le_refl 1, fun hwaits => (by cases hwaits), hasks⟩
  dropped first hfirst hunauthorized := by
    cases hretried : r.config.retried with
    | false =>
      -- Nothing was handled before, and what is handled now is no 401.
      have hnone : r.handled = [] := (h.fresh hretried).2 (by rw [hstage]; rfl)
      obtain rfl : sent = first := by simpa [hnone] using hfirst
      rw [hlast hunauthorized] at hretried
      cases hretried
    | true =>
      obtain ⟨head, rest, hhandled, -⟩ := h.retried hretried
      refine h.dropped first ?_ hunauthorized
      rw [hhandled] at hfirst ⊢
      exact hfirst

theorem Request.Sound.replay (h : r.Sound provider s) (hstage : r.stage = .sent sent) (hsent : sent.Unauthorized)
    (hretried : r.config.retried = false) (ht : s.Onwards t)
    (hlt : sent.asked.epoch < t.strategy.cache.cacheEpoch) (hdropped : sent.asked.authGeneration < t.generation) :
    ({ config := { r.config with retried := true }, stage := .requested, handled := r.handled ++ [sent] } :
      Request Value Response).Sound provider t := by
  have hnone : r.handled = [] := (h.fresh hretried).2 (by rw [hstage]; rfl)
  constructor
  case wraps =>
    obtain hwraps | ⟨hrequested, -⟩ := h.wraps
    · exact .inl hwraps
    · cases hstage.symm.trans hrequested
  case asks => exact fun _ hasked => absurd hasked List.not_mem_nil
  case sends =>
    intro sent' hsent'
    refine (h.sends sent' ?_).onwards ht
    rw [Request.sends, hstage]
    exact (List.append_nil (r.handled ++ [sent])) ▸ hsent'
  case fresh => exact fun hfalse => by cases hfalse
  case retried =>
    intro _
    refine ⟨sent, [], by rw [hnone]; rfl, hsent, hlt, Nat.zero_le 1, fun _ => rfl, fun a ha => ?_⟩
    cases ha
  case dropped =>
    intro first hfirst _
    obtain rfl : sent = first := by simpa [hnone] using hfirst
    exact hdropped

theorem State.Sound.handle {outcome : Resilience.Outcome AxiosError Response} (h : s.Sound provider)
    (hr : s.requests[i]? = some r) (hstage : r.stage = .sent sent)
    (hsettled : sent.execution.stage = .settled outcome) :
    (s.handle i r sent outcome).Sound provider := by
  have hsound := h.requests r (List.mem_of_getElem? hr)
  have hasked := hsound.asks sent.asked (by rw [hstage]; exact List.mem_singleton_self sent.asked)
  rw [State.handle]
  dsimp only
  split_ifs with hreplay hcurrent
  · rw [Bool.and_eq_true, Bool.not_eq_true'] at hreplay
    -- The epoch of the strategy is ahead from here on of every ask of this generation.
    have honwards : s.Onwards { (s.put i
        { config := { r.config with retried := true }, stage := .requested,
          handled := r.handled ++ [sent] }).invalidate with
        generation := s.generation + 1, refreshed := s.refreshed ++ [s.generation] } :=
      { fetches := SharedFetch.State.Extends.refl _
        calls := List.prefix_rfl
        epoch := Nat.le_succ _
        generation := Nat.le_succ _
        stale := fun _ => Nat.lt_succ_self _ }
    refine ⟨h.coherent.invalidate, ?_, requests_set h.requests honwards rfl ?_⟩
    · rw [h.refreshed, List.range_succ]
    · exact hsound.replay hstage ⟨outcome, hsettled, hreplay.1⟩ hreplay.2 honwards (Nat.lt_succ_of_le hasked.epoch)
        (Nat.lt_succ_of_le hasked.generation)
  · rw [Bool.and_eq_true, Bool.not_eq_true'] at hreplay
    have hstale : sent.asked.authGeneration < s.generation := Nat.lt_of_le_of_ne hasked.generation hcurrent
    have honwards : s.Onwards (s.put i
        { config := { r.config with retried := true }, stage := .requested, handled := r.handled ++ [sent] }) :=
      .of_strategy rfl rfl
    refine ⟨h.coherent, h.refreshed, requests_set h.requests honwards rfl ?_⟩
    exact hsound.replay hstage ⟨outcome, hsettled, hreplay.1⟩ hreplay.2 honwards (hasked.stale hstale) hstale
  · have honwards : s.Onwards (s.put i { r with stage := .settled, handled := r.handled ++ [sent] }) :=
      .of_strategy rfl rfl
    have hlast : sent.Unauthorized → r.config.retried = true := by
      rintro ⟨answer, hanswer, hunauthorized⟩
      cases hsettled.symm.trans hanswer
      simpa [hunauthorized] using hreplay
    refine ⟨h.coherent, h.refreshed, requests_set h.requests honwards rfl ?_⟩
    exact (hsound.answered hstage hlast).onwards honwards

theorem State.Sound.moves (h : s.Sound provider) (hmoves : s.Moves provider t) : t.Sound provider := by
  cases hmoves with
  | request method retry =>
    refine ⟨h.coherent, h.refreshed, fun r hr => ?_⟩
    obtain hr | hr := List.mem_append.mp hr
    · exact (h.requests r hr).onwards (.of_strategy rfl rfl)
    · obtain rfl := List.mem_singleton.mp hr
      constructor
      case wraps => exact .inr ⟨rfl, rfl, rfl⟩
      case asks => exact fun _ hasked => absurd hasked List.not_mem_nil
      case sends => exact fun _ hsent => absurd hsent List.not_mem_nil
      case fresh => exact fun _ => ⟨Nat.zero_le 1, fun _ => rfl⟩
      case retried => exact fun hfalse => by cases hfalse
      case dropped => exact fun _ hfirst => by cases hfirst
  | strategy hstep =>
    have honwards := Coherent.onwards h.coherent hstep
    exact ⟨SharedFetch.coherent_step h.coherent hstep, h.refreshed, fun r hr => (h.requests r hr).onwards honwards⟩
  | ask hr hstage => exact h.ask hr hstage
  | @refused i r asked hr hstage =>
    have honwards : s.Onwards (s.put i { r with stage := .settled }) := .of_strategy rfl rfl
    have hsound := (h.requests r (List.mem_of_getElem? hr)).settle hstage
    exact ⟨h.coherent, h.refreshed, requests_set h.requests honwards rfl (hsound.onwards honwards)⟩
  | @rejected i r asked hr hstage =>
    have honwards : s.Onwards (s.invalidate.put i { r with stage := .settled }) := { State.Onwards.invalidate with }
    have hsound := (h.requests r (List.mem_of_getElem? hr)).settle hstage
    exact ⟨h.coherent.invalidate, h.refreshed, requests_set h.requests honwards rfl (hsound.onwards honwards)⟩
  | @sent i r asked call credentials applied parentAborted hr hstage hcall hreturned happlied =>
    have hsound :=
      (h.requests r (List.mem_of_getElem? hr)).send parentAborted h.coherent hstage hcall hreturned happlied
    exact ⟨h.coherent, h.refreshed, requests_set h.requests (.of_strategy rfl rfl) rfl
      (hsound.onwards (.of_strategy rfl rfl))⟩
  | @policy i r sent event execution hr hstage hstep =>
    have hsound := (h.requests r (List.mem_of_getElem? hr)).policy hstage hstep
    exact ⟨h.coherent, h.refreshed, requests_set h.requests (.of_strategy rfl rfl) rfl
      (hsound.onwards (.of_strategy rfl rfl))⟩
  | handle hr hstage hsettled => exact h.handle hr hstage hsettled

theorem sound_run (hrun : run (step provider) {} events = some s) : s.Sound provider := by
  apply invariant (fun _ _ _ h hstep => h.moves (step_cases hstep)) _ hrun
  exact ⟨SharedFetch.coherent_start, rfl, fun r hr => absurd hr List.not_mem_nil⟩

theorem Request.Sound.first (h : r.Sound provider s) {first second : Sent Value Response}
    {later : List (Sent Value Response)} (hsends : r.sends = first :: second :: later) :
    later = [] ∧ first.Unauthorized ∧ first.asked.epoch < second.asked.epoch := by
  rw [Request.sends] at hsends
  cases hretried : r.config.retried with
  | false =>
    obtain ⟨hfew, hnone⟩ := h.fresh hretried
    cases hstage : r.stage with
    | sent last =>
      rw [hnone (by rw [hstage]; rfl), hstage] at hsends
      cases hsends
    | _ =>
      rw [hstage, Stage.sends, List.append_nil] at hsends
      rw [hsends] at hfew
      simp at hfew
  | true =>
    obtain ⟨head, rest, hhandled, hunauthorized, -, hrest, hnone, hasks⟩ := h.retried hretried
    rw [hhandled] at hsends
    cases hstage : r.stage with
    | sent last =>
      obtain rfl : rest = [] := hnone (by rw [hstage]; rfl)
      rw [hstage] at hsends hasks
      cases hsends
      exact ⟨rfl, hunauthorized, hasks second.asked (List.mem_singleton_self second.asked)⟩
    | _ =>
      rw [hstage, Stage.sends, List.append_nil] at hsends
      cases hsends
      refine ⟨?_, hunauthorized, hasks second.asked (by simp)⟩
      simpa using hrest

def answered (i : Nat) (outcome : Resilience.Outcome AxiosError Nat) :
    List (Event (Except JsString (Nat × JsString)) Nat) :=
  [.policy i (.attempt 0 (.calledBack none)), .policy i (.attempt 0 .begins),
    .policy i (.attempt 0 (.fnSettles outcome)), .policy i (.attempt 0 .resumes), .policy i (.attempt 0 .concludes),
    .policy i .forward, .policy i .resume, .handle i]

def fetched (fetch : Nat) (text : JsString) : List (Event (Except JsString (Nat × JsString)) Nat) :=
  [.strategy (.receive fetch (.ok (0, text))), .strategy (.resume fetch), .strategy (.settle fetch)]

end HomelabApps.HttpProvider
