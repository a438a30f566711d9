import HomelabApps.Library.Lists
import HomelabApps.Library.Transition
import Mathlib.Data.List.Basic

/-! A cache that one shared fetch fills: who asks while nothing usable is cached waits for the
fetch in flight, and an invalidation leaves both the entry and that fetch behind. -/

namespace HomelabApps.Library.SharedFetch

open Transition

/-- What caches of one kind have of their own: what a fetch that was started at one time resolves
with when its answer comes at another, `none` for an answer it cannot get; the value in a result;
the expiry recorded for it when the cache is filled; and whether an entry may still be used. -/
structure Source (Answer Failure Result Value Expiry : Type) where
  receive : Nat → Nat → Answer → Option (Except Failure Result)
  value : Result → Value
  expiry : Nat → Result → Option Expiry
  usable : Nat → Value → Option Expiry → Bool
  lapses : t ≤ u → usable u v x = true → usable t v x = true

structure Kept (Value : Type) where
  fetch : Nat
  value : Value

structure Cache (Value Expiry : Type) where
  cached : Option (Kept Value) := none
  expiresAt : Option Expiry := none
  inFlight : Option Nat := none
  inFlightEpoch : Option Nat := none
  cacheEpoch : Nat := 0

structure Reply (Answer Failure Result : Type) where
  receivedAt : Nat
  answer : Answer
  outcome : Except Failure Result

/-- A fetch gets its reply, then its continuation runs, then it settles. -/
structure Fetch (Answer Failure Result : Type) where
  requestEpoch : Nat
  startedAt : Nat
  reply : Option (Reply Answer Failure Result) := none
  resumedAt : Option Nat := none
  settled : Bool := false

structure Call (Value : Type) where
  madeAt : Nat
  fetch : Nat
  cached : Option Value

structure State (Answer Failure Result Value Expiry : Type) where
  now : Nat := 0
  cache : Cache Value Expiry := {}
  fetches : List (Fetch Answer Failure Result) := []
  calls : List (Call Value) := []

inductive Event (Answer : Type)
  | get
  | invalidate
  | pass (duration : Nat)
  | receive (fetch : Nat) (answer : Answer)
  | resume (fetch : Nat)
  | settle (fetch : Nat)

variable {Answer Failure Result Value Expiry : Type}

def Cache.hit (source : Source Answer Failure Result Value Expiry) (now : Nat) (cache : Cache Value Expiry) :
    Option (Kept Value) :=
  cache.cached.filter fun kept => source.usable now kept.value cache.expiresAt

def Cache.shared (cache : Cache Value Expiry) : Option Nat :=
  if cache.inFlightEpoch = some cache.cacheEpoch then cache.inFlight else none

def Cache.start (cache : Cache Value Expiry) (fetch : Nat) : Cache Value Expiry :=
  { cache with inFlight := some fetch, inFlightEpoch := some cache.cacheEpoch }

def Cache.invalidate (cache : Cache Value Expiry) : Cache Value Expiry :=
  { cache with cacheEpoch := cache.cacheEpoch + 1, cached := none, expiresAt := none }

def Cache.fill (source : Source Answer Failure Result Value Expiry) (cache : Cache Value Expiry)
    (fetch requestEpoch now : Nat) (result : Result) : Cache Value Expiry :=
  if cache.cacheEpoch = requestEpoch then
    { cache with cached := some ⟨fetch, source.value result⟩, expiresAt := source.expiry now result }
  else cache

def Cache.release (cache : Cache Value Expiry) (requestEpoch : Nat) : Cache Value Expiry :=
  if cache.inFlightEpoch = some requestEpoch then { cache with inFlight := none, inFlightEpoch := none }
  else cache

def State.get (source : Source Answer Failure Result Value Expiry) (s : State Answer Failure Result Value Expiry) :
    State Answer Failure Result Value Expiry :=
  match s.cache.hit source s.now with
  | some kept => { s with calls := s.calls ++ [⟨s.now, kept.fetch, some kept.value⟩] }
  | none =>
    match s.cache.shared with
    | some fetch => { s with calls := s.calls ++ [⟨s.now, fetch, none⟩] }
    | none =>
      { s with
        cache := s.cache.start s.fetches.length
        fetches := s.fetches ++ [{ requestEpoch := s.cache.cacheEpoch, startedAt := s.now }]
        calls := s.calls ++ [⟨s.now, s.fetches.length, none⟩] }

def Reply.resume (source : Source Answer Failure Result Value Expiry) (reply : Reply Answer Failure Result)
    (cache : Cache Value Expiry) (fetch requestEpoch now : Nat) : Cache Value Expiry :=
  match reply.outcome with
  | .ok result => cache.fill source fetch requestEpoch now result
  | .error _ => cache

def step (source : Source Answer Failure Result Value Expiry) (s : State Answer Failure Result Value Expiry) :
    Event Answer → Option (State Answer Failure Result Value Expiry)
  | .get => some (s.get source)
  | .invalidate => some { s with cache := s.cache.invalidate }
  | .pass duration => some { s with now := s.now + duration }
  | .receive i answer =>
    match s.fetches[i]? with
    | none => none
    | some f =>
      if f.reply.isSome then none
      else
        (source.receive f.startedAt s.now answer).map fun outcome =>
          { s with fetches := s.fetches.set i { f with reply := some ⟨s.now, answer, outcome⟩ } }
  | .resume i =>
    match s.fetches[i]? with
    | none => none
    | some f =>
      if f.resumedAt.isSome then none
      else
        f.reply.map fun reply =>
          { s with
            fetches := s.fetches.set i { f with resumedAt := some s.now }
            cache := reply.resume source s.cache i f.requestEpoch s.now }
  | .settle i =>
    match s.fetches[i]? with
    | none => none
    | some f =>
      if f.resumedAt.isNone || f.settled then none
      else
        some { s with
          fetches := s.fetches.set i { f with settled := true }
          cache := s.cache.release f.requestEpoch }

def State.returned (source : Source Answer Failure Result Value Expiry) (s : State Answer Failure Result Value Expiry)
    (call : Call Value) : Option (Except Failure Value) :=
  match call.cached with
  | some value => some (.ok value)
  | none =>
    match s.fetches[call.fetch]? with
    | none => none
    | some f => if f.settled then f.reply.map fun reply => reply.outcome.map source.value else none

structure Fetch.Resumed (f : Fetch Answer Failure Result) (reply : Reply Answer Failure Result) (result : Result)
    (time : Nat) : Prop where
  outcome : reply.outcome = .ok result
  replied : f.reply = some reply
  resumed : f.resumedAt = some time

structure Fetch.Grows (f g : Fetch Answer Failure Result) : Prop where
  requestEpoch : g.requestEpoch = f.requestEpoch
  startedAt : g.startedAt = f.startedAt
  settled : f.settled = true → g.settled = true
  reply : ∀ reply, f.reply = some reply → g.reply = some reply
  resumedAt : ∀ time, f.resumedAt = some time → g.resumedAt = some time

def Call.Served (source : Source Answer Failure Result Value Expiry) (s : State Answer Failure Result Value Expiry)
    (call : Call Value) : Prop :=
  ∃ f, s.fetches[call.fetch]? = some f ∧ ∀ value, call.cached = some value →
    ∃ reply result t, f.Resumed reply result t ∧ source.value result = value ∧
      source.usable call.madeAt value (source.expiry t result) = true

structure Coherent (source : Source Answer Failure Result Value Expiry)
    (s : State Answer Failure Result Value Expiry) : Prop where
  slot : ∀ i, s.cache.inFlight = some i →
    ∃ f, s.fetches[i]? = some f ∧ f.settled = false ∧ s.cache.inFlightEpoch = some f.requestEpoch
  current : ∀ (i : Nat) (f : Fetch Answer Failure Result), s.fetches[i]? = some f → f.settled = false →
    f.requestEpoch = s.cache.cacheEpoch →
    s.cache.inFlight = some i
  epochs : ∀ (i : Nat) (f : Fetch Answer Failure Result), s.fetches[i]? = some f → f.requestEpoch ≤ s.cache.cacheEpoch
  ordered : ∀ (i j : Nat) (f g : Fetch Answer Failure Result), i < j → s.fetches[i]? = some f → s.fetches[j]? = some g →
    f.requestEpoch ≤ g.requestEpoch ∧ (f.requestEpoch = g.requestEpoch → f.settled = true)
  stages : ∀ (i : Nat) (f : Fetch Answer Failure Result), s.fetches[i]? = some f → f.settled = true → f.resumedAt ≠ none
  replies : ∀ (i : Nat) (f : Fetch Answer Failure Result) (reply : Reply Answer Failure Result),
    s.fetches[i]? = some f → f.reply = some reply →
    source.receive f.startedAt reply.receivedAt reply.answer = some reply.outcome
  kept : ∀ k, s.cache.cached = some k → ∃ f, s.fetches[k.fetch]? = some f ∧ f.requestEpoch = s.cache.cacheEpoch ∧
    ∃ reply result t, f.Resumed reply result t ∧ source.value result = k.value ∧
      source.expiry t result = s.cache.expiresAt
  outdated : ∀ (k : Kept Value) (j : Nat) (g : Fetch Answer Failure Result), s.cache.cached = some k →
    s.fetches[j]? = some g → k.fetch < j →
    g.requestEpoch = s.cache.cacheEpoch → source.usable s.now k.value s.cache.expiresAt = false
  served : ∀ call ∈ s.calls, call.Served source s

variable {source : Source Answer Failure Result Value Expiry} {s t : State Answer Failure Result Value Expiry}
  {f g : Fetch Answer Failure Result} {call : Call Value} {i j : Nat} {events : List (Event Answer)}

theorem receive_some {answer : Answer} (h : step source s (.receive i answer) = some t) :
    ∃ f outcome, s.fetches[i]? = some f ∧ f.reply = none ∧ source.receive f.startedAt s.now answer = some outcome ∧
      t = { s with fetches := s.fetches.set i { f with reply := some ⟨s.now, answer, outcome⟩ } } := by
  simp only [step] at h
  cases hf : s.fetches[i]? with
  | none => simp [hf] at h
  | some f =>
    cases hreply : f.reply with
    | some reply => simp [hf, hreply] at h
    | none =>
      simp only [hf, hreply, Option.isSome_none, Bool.false_eq_true, if_false, Option.map_eq_some_iff] at h
      obtain ⟨outcome, houtcome, rfl⟩ := h
      exact ⟨f, outcome, rfl, hreply, houtcome, rfl⟩

theorem resume_some (h : step source s (.resume i) = some t) :
    ∃ f reply, s.fetches[i]? = some f ∧ f.resumedAt = none ∧ f.reply = some reply ∧
      t = { s with
        fetches := s.fetches.set i { f with resumedAt := some s.now }
        cache := reply.resume source s.cache i f.requestEpoch s.now } := by
  simp only [step] at h
  cases hf : s.fetches[i]? with
  | none => simp [hf] at h
  | some f =>
    cases hresumed : f.resumedAt with
    | some u => simp [hf, hresumed] at h
    | none =>
      simp only [hf, hresumed, Option.isSome_none, Bool.false_eq_true, if_false, Option.map_eq_some_iff] at h
      obtain ⟨reply, hreply, rfl⟩ := h
      exact ⟨f, reply, rfl, hresumed, hreply, rfl⟩

theorem settle_some (h : step source s (.settle i) = some t) :
    ∃ f, s.fetches[i]? = some f ∧ f.resumedAt ≠ none ∧ f.settled = false ∧
      t = { s with fetches := s.fetches.set i { f with settled := true }, cache := s.cache.release f.requestEpoch } := by
  simp only [step] at h
  cases hf : s.fetches[i]? with
  | none => simp [hf] at h
  | some f =>
    simp only [hf] at h
    split_ifs at h with hguard
    obtain ⟨hresumed, hsettled⟩ : f.resumedAt ≠ none ∧ f.settled = false := by simpa using hguard
    exact ⟨f, rfl, hresumed, hsettled, (Option.some.inj h).symm⟩

@[simp] theorem release_cacheEpoch (cache : Cache Value Expiry) (epoch : Nat) :
    (cache.release epoch).cacheEpoch = cache.cacheEpoch := by
  rw [Cache.release]
  split_ifs <;> rfl

@[simp] theorem release_cached (cache : Cache Value Expiry) (epoch : Nat) :
    (cache.release epoch).cached = cache.cached := by
  rw [Cache.release]
  split_ifs <;> rfl

@[simp] theorem release_expiresAt (cache : Cache Value Expiry) (epoch : Nat) :
    (cache.release epoch).expiresAt = cache.expiresAt := by
  rw [Cache.release]
  split_ifs <;> rfl

theorem Fetch.Grows.refl (f : Fetch Answer Failure Result) : f.Grows f :=
  ⟨rfl, rfl, id, fun _ => id, fun _ => id⟩

theorem Fetch.grows_receive (h : f.reply = none) (reply : Reply Answer Failure Result) :
    f.Grows { f with reply := some reply } :=
  ⟨rfl, rfl, id, fun reply hr => by simp [h] at hr, fun _ => id⟩

theorem Fetch.grows_resume (h : f.resumedAt = none) (time : Nat) : f.Grows { f with resumedAt := some time } :=
  ⟨rfl, rfl, id, fun _ => id, fun time ht => by simp [h] at ht⟩

theorem Fetch.grows_settle (f : Fetch Answer Failure Result) : f.Grows { f with settled := true } :=
  ⟨rfl, rfl, fun _ => rfl, fun _ => id, fun _ => id⟩

theorem Fetch.Resumed.grows {reply : Reply Answer Failure Result} {result : Result} {time : Nat}
    (h : f.Resumed reply result time) (hg : f.Grows g) : g.Resumed reply result time :=
  ⟨h.outcome, hg.reply reply h.replied, hg.resumedAt time h.resumed⟩

theorem getElem?_set_some (h : s.fetches[i]? = some f) :
    (s.fetches.set i g)[j]? = if i = j then some g else s.fetches[j]? := by
  have hi : i < s.fetches.length := (List.getElem?_eq_some_iff.mp h).1
  by_cases hij : i = j
  · simp [← hij, hi]
  · simp [List.getElem?_set_ne hij, hij]

def State.Extends (s t : State Answer Failure Result Value Expiry) : Prop :=
  ∀ (i : Nat) (f : Fetch Answer Failure Result), s.fetches[i]? = some f →
    ∃ g : Fetch Answer Failure Result, t.fetches[i]? = some g ∧ f.Grows g

theorem extends_put (h : s.fetches[i]? = some f) (hg : f.Grows g) (ht : t.fetches = s.fetches.set i g) :
    s.Extends t := by
  intro j e he
  rw [ht, getElem?_set_some h]
  split_ifs with hij
  · subst hij
    obtain rfl : f = e := by simpa [h] using he
    exact ⟨g, rfl, hg⟩
  · exact ⟨e, he, Fetch.Grows.refl e⟩

theorem Call.Served.extends (h : call.Served source s) (ht : s.Extends t) : call.Served source t := by
  obtain ⟨f, hf, hcached⟩ := h
  obtain ⟨g, hg, hgrows⟩ := ht call.fetch f hf
  refine ⟨g, hg, fun value hvalue => ?_⟩
  obtain ⟨reply, result, time, hresumed, hrest⟩ := hcached value hvalue
  exact ⟨reply, result, time, hresumed.grows hgrows, hrest⟩

theorem grows_of_set {e : Fetch Answer Failure Result} (hf : s.fetches[i]? = some f) (hg : f.Grows g)
    (he : (s.fetches.set i g)[j]? = some e) :
    ∃ e' : Fetch Answer Failure Result, s.fetches[j]? = some e' ∧ e'.Grows e := by
  obtain ⟨rfl, rfl⟩ | ⟨-, he⟩ := getElem?_set_cases he
  · exact ⟨f, hf, hg⟩
  · exact ⟨e, he, Fetch.Grows.refl e⟩

/-- A fetch goes on, and what remains to be shown is whom the slot belongs to. -/
theorem Coherent.set (h : Coherent source s) (slot epoch : Option Nat) (hf : s.fetches[i]? = some f)
    (hg : f.Grows g) (hstage : g.settled = true → g.resumedAt ≠ none)
    (hreply : ∀ reply, g.reply = some reply → f.reply = some reply ∨
      source.receive f.startedAt reply.receivedAt reply.answer = some reply.outcome)
    (hslot : ∀ j, slot = some j → ∃ e : Fetch Answer Failure Result,
      (s.fetches.set i g)[j]? = some e ∧ e.settled = false ∧ epoch = some e.requestEpoch)
    (hcurrent : ∀ (j : Nat) (e : Fetch Answer Failure Result), (s.fetches.set i g)[j]? = some e →
      e.settled = false → e.requestEpoch = s.cache.cacheEpoch → slot = some j) :
    Coherent source { s with
      fetches := s.fetches.set i g, cache := { s.cache with inFlight := slot, inFlightEpoch := epoch } } := by
  have hext : s.Extends { s with
      fetches := s.fetches.set i g, cache := { s.cache with inFlight := slot, inFlightEpoch := epoch } } :=
    extends_put hf hg rfl
  constructor
  case slot => exact hslot
  case current => exact hcurrent
  case epochs =>
    intro j e he
    obtain ⟨e', he', hgrows⟩ := grows_of_set hf hg he
    exact hgrows.requestEpoch ▸ h.epochs j e' he'
  case ordered =>
    intro j k e d hjk he hd
    obtain ⟨e', he', hgrowsE⟩ := grows_of_set hf hg he
    obtain ⟨d', hd', hgrowsD⟩ := grows_of_set hf hg hd
    rw [hgrowsE.requestEpoch, hgrowsD.requestEpoch]
    have hordered := h.ordered j k e' d' hjk he' hd'
    exact ⟨hordered.1, fun hsame => hgrowsE.settled (hordered.2 hsame)⟩
  case stages =>
    intro j e he hs
    obtain ⟨rfl, rfl⟩ | ⟨-, he⟩ := getElem?_set_cases he
    · exact hstage hs
    · exact h.stages j e he hs
  case replies =>
    intro j e reply he hr
    obtain ⟨rfl, rfl⟩ | ⟨-, he⟩ := getElem?_set_cases he
    · rw [hg.startedAt]
      obtain hold | hnew := hreply reply hr
      · exact h.replies j f reply hf hold
      · exact hnew
    · exact h.replies j e reply he hr
  case kept =>
    intro k hk
    obtain ⟨e, he, hepoch, reply, result, time, hresumed, hrest⟩ := h.kept k hk
    obtain ⟨d, hd, hgrows⟩ := hext k.fetch e he
    exact ⟨d, hd, hgrows.requestEpoch.trans hepoch, reply, result, time, hresumed.grows hgrows, hrest⟩
  case outdated =>
    intro k j e hk he hlt hepoch
    obtain ⟨e', he', hgrows⟩ := grows_of_set hf hg he
    exact h.outdated k j e' hk he' hlt (hgrows.requestEpoch ▸ hepoch)
  case served =>
    intro call hcall
    exact (h.served call hcall).extends hext

theorem Coherent.put (h : Coherent source s) (hf : s.fetches[i]? = some f) (hg : f.Grows g)
    (hsettled : g.settled = f.settled)
    (hreply : ∀ reply, g.reply = some reply → f.reply = some reply ∨
      source.receive f.startedAt reply.receivedAt reply.answer = some reply.outcome) :
    Coherent source { s with fetches := s.fetches.set i g } := by
  refine h.set s.cache.inFlight s.cache.inFlightEpoch hf hg ?_ hreply ?_ ?_
  · intro hs
    obtain ⟨time, htime⟩ := Option.ne_none_iff_exists'.mp (h.stages i f hf (hsettled ▸ hs))
    simp [hg.resumedAt time htime]
  · intro j hj
    obtain ⟨e, he, hunsettled, hepoch⟩ := h.slot j hj
    rw [getElem?_set_some hf]
    split_ifs with hij
    · subst hij
      obtain rfl : f = e := by simpa [hf] using he
      exact ⟨g, rfl, hsettled.trans hunsettled, hg.requestEpoch ▸ hepoch⟩
    · exact ⟨e, he, hunsettled, hepoch⟩
  · intro j e he hunsettled hepoch
    obtain ⟨rfl, rfl⟩ | ⟨-, he⟩ := getElem?_set_cases he
    · exact h.current j f hf (hsettled ▸ hunsettled) (hg.requestEpoch ▸ hepoch)
    · exact h.current j e he hunsettled hepoch

theorem Coherent.fill {reply : Reply Answer Failure Result} {result : Result} (h : Coherent source s)
    (hf : s.fetches[i]? = some f) (hsettled : f.settled = false) (hresumed : f.Resumed reply result s.now) :
    Coherent source { s with cache := s.cache.fill source i f.requestEpoch s.now result } := by
  rw [Cache.fill]
  split_ifs with hepoch
  · refine { h with kept := ?_, outdated := ?_ }
    · rintro k ⟨⟩
      exact ⟨f, hf, hepoch.symm, reply, result, s.now, hresumed, rfl, rfl⟩
    · rintro k j e ⟨⟩ he hlt hsame
      have hdone : f.settled = true := (h.ordered i j f e hlt hf he).2 (hepoch.symm.trans hsame.symm)
      simp [hsettled] at hdone
  · exact h

theorem Coherent.invalidate (h : Coherent source s) : Coherent source { s with cache := s.cache.invalidate } where
  slot := h.slot
  current i f hf _ hepoch := by
    have := h.epochs i f hf
    simp only [Cache.invalidate] at hepoch
    omega
  epochs i f hf := Nat.le_succ_of_le (h.epochs i f hf)
  ordered := h.ordered
  stages := h.stages
  replies := h.replies
  kept k hk := by simp [Cache.invalidate] at hk
  outdated k j g hk := by simp [Cache.invalidate] at hk
  served := h.served

theorem Coherent.pass {duration : Nat} (h : Coherent source s) :
    Coherent source { s with now := s.now + duration } := by
  refine { h with outdated := fun k j g hk hg hlt hepoch => ?_ }
  have hbefore : source.usable s.now k.value s.cache.expiresAt = false := h.outdated k j g hk hg hlt hepoch
  refine Bool.eq_false_iff.mpr fun hafter => ?_
  simp [source.lapses (Nat.le_add_right s.now duration) hafter] at hbefore

theorem Coherent.own (h : Coherent source s) (hf : s.fetches[i]? = some f) (hsettled : f.settled = false)
    (hown : s.cache.inFlightEpoch = some f.requestEpoch) {e : Fetch Answer Failure Result}
    (he : s.fetches[j]? = some e) (hunsettled : e.settled = false) (hepoch : e.requestEpoch = s.cache.cacheEpoch) :
    j = i := by
  have hslot : s.cache.inFlight = some j := h.current j e he hunsettled hepoch
  obtain ⟨d, hd, _, hepochD⟩ := h.slot j hslot
  obtain rfl : e = d := by simpa [he] using hd
  have hsame : e.requestEpoch = f.requestEpoch := Option.some.inj (hepochD.symm.trans hown)
  obtain hlt | heq | hlt := Nat.lt_trichotomy j i
  · simp [(h.ordered j i e f hlt he hf).2 hsame] at hunsettled
  · exact heq
  · simp [(h.ordered i j f e hlt hf he).2 hsame.symm] at hsettled

theorem Coherent.settle (h : Coherent source s) (hf : s.fetches[i]? = some f) (hresumed : f.resumedAt ≠ none)
    (hsettled : f.settled = false) :
    Coherent source { s with
      fetches := s.fetches.set i { f with settled := true }, cache := s.cache.release f.requestEpoch } := by
  rw [Cache.release]
  split_ifs with hown
  · -- The slot that is released is the settling fetch's own: no other of its epoch is unsettled.
    refine h.set none none hf f.grows_settle (fun _ => hresumed) (fun _ => .inl) (fun j hj => by cases hj)
      fun j e he hunsettled hepoch => ?_
    obtain ⟨rfl, rfl⟩ | ⟨hji, he⟩ := getElem?_set_cases he
    · cases hunsettled
    · exact absurd (h.own hf hsettled hown he hunsettled hepoch) hji
  · refine h.set s.cache.inFlight s.cache.inFlightEpoch hf f.grows_settle (fun _ => hresumed) (fun _ => .inl)
      (fun j hj => ?_) fun j e he hunsettled hepoch => ?_
    · obtain ⟨e, he, hunsettled, hepoch⟩ := h.slot j hj
      have hij : i ≠ j := by
        rintro rfl
        obtain rfl : f = e := by simpa [hf] using he
        exact hown hepoch
      exact ⟨e, by rwa [List.getElem?_set_ne hij], hunsettled, hepoch⟩
    · obtain ⟨rfl, rfl⟩ | ⟨-, he⟩ := getElem?_set_cases he
      · cases hunsettled
      · exact h.current j e he hunsettled hepoch

theorem hit_some {kept : Kept Value} (h : s.cache.hit source s.now = some kept) :
    s.cache.cached = some kept ∧ source.usable s.now kept.value s.cache.expiresAt = true :=
  Option.filter_eq_some_iff.mp h

theorem shared_some (h : s.cache.shared = some i) :
    s.cache.inFlight = some i ∧ s.cache.inFlightEpoch = some s.cache.cacheEpoch := by
  rw [Cache.shared] at h
  split_ifs at h with hepoch
  exact ⟨h, hepoch⟩

theorem Coherent.idle (h : Coherent source s) (hshared : s.cache.shared = none) (hf : s.fetches[i]? = some f)
    (hepoch : f.requestEpoch = s.cache.cacheEpoch) : f.settled = true := by
  by_contra hsettled
  have hunsettled : f.settled = false := by simpa using hsettled
  have hslot : s.cache.inFlight = some i := h.current i f hf hunsettled hepoch
  obtain ⟨e, he, _, hslotEpoch⟩ := h.slot i hslot
  obtain rfl : f = e := by simpa [hf] using he
  simp [Cache.shared, hslotEpoch, hepoch, hslot] at hshared

theorem extends_start (ht : t.fetches = s.fetches ++ [f]) : s.Extends t := by
  intro i e he
  rw [ht]
  exact ⟨e, List.getElem?_append_left (List.getElem?_eq_some_iff.mp he).1 ▸ he, Fetch.Grows.refl e⟩

theorem Coherent.logged (h : Coherent source s) (hcall : call.Served source s) :
    Coherent source { s with calls := s.calls ++ [call] } := by
  refine { h with served := fun c hc => ?_ }
  obtain hc | hc := List.mem_append.mp hc
  · exact h.served c hc
  · obtain rfl := List.mem_singleton.mp hc
    exact hcall

theorem Coherent.start (h : Coherent source s) (hhit : s.cache.hit source s.now = none)
    (hshared : s.cache.shared = none) :
    Coherent source { s with
      cache := s.cache.start s.fetches.length
      fetches := s.fetches ++ [{ requestEpoch := s.cache.cacheEpoch, startedAt := s.now }] } := by
  have hext : s.Extends { s with
      cache := s.cache.start s.fetches.length
      fetches := s.fetches ++ [{ requestEpoch := s.cache.cacheEpoch, startedAt := s.now }] } := extends_start rfl
  constructor
  case slot =>
    rintro j ⟨⟩
    exact ⟨_, List.getElem?_concat_length, rfl, rfl⟩
  case current =>
    intro j e he hunsettled hepoch
    obtain he | ⟨rfl, rfl⟩ := getElem?_concat_cases he
    · simp [h.idle hshared he hepoch] at hunsettled
    · rfl
  case epochs =>
    intro j e he
    obtain he | ⟨rfl, rfl⟩ := getElem?_concat_cases he
    · exact h.epochs j e he
    · exact Nat.le_refl _
  case ordered =>
    intro j k e d hjk he hd
    obtain he | ⟨rfl, rfl⟩ := getElem?_concat_cases he
    · obtain hd | ⟨rfl, rfl⟩ := getElem?_concat_cases hd
      · exact h.ordered j k e d hjk he hd
      · exact ⟨h.epochs j e he, fun hsame => h.idle hshared he hsame⟩
    · have hlt : k < s.fetches.length + 1 := by simpa using (List.getElem?_eq_some_iff.mp hd).1
      omega
  case stages =>
    intro j e he hs
    obtain he | ⟨rfl, rfl⟩ := getElem?_concat_cases he
    · exact h.stages j e he hs
    · cases hs
  case replies =>
    intro j e reply he hr
    obtain he | ⟨rfl, rfl⟩ := getElem?_concat_cases he
    · exact h.replies j e reply he hr
    · cases hr
  case kept =>
    intro k hk
    obtain ⟨e, he, hepoch, reply, result, time, hresumed, hrest⟩ := h.kept k hk
    obtain ⟨d, hd, hg⟩ := hext k.fetch e he
    exact ⟨d, hd, hg.requestEpoch.trans hepoch, reply, result, time, hresumed.grows hg, hrest⟩
  case outdated =>
    intro k j e hk he hlt hepoch
    obtain he | ⟨rfl, rfl⟩ := getElem?_concat_cases he
    · exact h.outdated k j e hk he hlt hepoch
    · have hcached : s.cache.cached = some k := hk
      simpa [Cache.hit, hcached, Cache.start] using hhit
  case served =>
    intro c hc
    exact (h.served c hc).extends hext

theorem Coherent.get (h : Coherent source s) : Coherent source (s.get source) := by
  rw [State.get]
  cases hhit : s.cache.hit source s.now with
  | some kept =>
    obtain ⟨hcached, husable⟩ := hit_some hhit
    obtain ⟨f, hf, _, reply, result, time, hresumed, hvalue, hexpiry⟩ := h.kept kept hcached
    refine h.logged ⟨f, hf, ?_⟩
    rintro value ⟨⟩
    exact ⟨reply, result, time, hresumed, hvalue, hexpiry ▸ husable⟩
  | none =>
    cases hshared : s.cache.shared with
    | some i =>
      obtain ⟨f, hf, _⟩ := h.slot i (shared_some hshared).1
      exact h.logged ⟨f, hf, fun value hvalue => by cases hvalue⟩
    | none =>
      exact (h.start hhit hshared).logged ⟨_, List.getElem?_concat_length, fun value hvalue => by cases hvalue⟩

theorem coherent_step {e : Event Answer} (h : Coherent source s) (hstep : step source s e = some t) :
    Coherent source t := by
  cases e with
  | get =>
    obtain rfl := Option.some.inj hstep
    exact h.get
  | invalidate =>
    obtain rfl := Option.some.inj hstep
    exact h.invalidate
  | pass duration =>
    obtain rfl := Option.some.inj hstep
    exact h.pass
  | receive i answer =>
    obtain ⟨f, outcome, hf, hreply, houtcome, rfl⟩ := receive_some hstep
    refine h.put hf (f.grows_receive hreply _) rfl fun reply hr => .inr ?_
    obtain rfl := Option.some.inj hr
    exact houtcome
  | resume i =>
    obtain ⟨f, reply, hf, hresumed, hreply, rfl⟩ := resume_some hstep
    have hsettled : f.settled = false := by
      refine Bool.eq_false_iff.mpr fun hs => ?_
      exact h.stages i f hf hs hresumed
    have hput := h.put hf (f.grows_resume hresumed s.now) rfl fun _ => .inl
    cases houtcome : reply.outcome with
    | error failure => simpa only [Reply.resume, houtcome] using hput
    | ok result =>
      have hi : i < s.fetches.length := (List.getElem?_eq_some_iff.mp hf).1
      simpa only [Reply.resume, houtcome] using
        hput.fill (i := i) (f := { f with resumedAt := some s.now }) (by simp [hi]) hsettled ⟨houtcome, hreply, rfl⟩
  | settle i =>
    obtain ⟨f, hf, hresumed, hsettled, rfl⟩ := settle_some hstep
    exact h.settle hf hresumed hsettled

theorem coherent_start : Coherent source ({} : State Answer Failure Result Value Expiry) := by
  constructor <;> intros <;> simp_all

theorem coherent_run (hrun : run (step source) {} events = some s) : Coherent source s :=
  invariant (fun _ _ _ h hstep => coherent_step h hstep) coherent_start hrun

theorem State.Extends.refl (s : State Answer Failure Result Value Expiry) : s.Extends s :=
  fun _ f hf => ⟨f, hf, Fetch.Grows.refl f⟩

theorem get_extends (s : State Answer Failure Result Value Expiry) : s.Extends (s.get source) := by
  rw [State.get]
  cases s.cache.hit source s.now with
  | some kept => exact State.Extends.refl s
  | none =>
    cases s.cache.shared with
    | some i => exact State.Extends.refl s
    | none => exact extends_start rfl

theorem Coherent.get_call (h : Coherent source s) :
    ∃ call f, (s.get source).calls = s.calls ++ [call] ∧ (s.get source).fetches[call.fetch]? = some f ∧
      f.requestEpoch = s.cache.cacheEpoch ∧ (s.get source).cache.cacheEpoch = s.cache.cacheEpoch := by
  rw [State.get]
  cases hhit : s.cache.hit source s.now with
  | some kept =>
    obtain ⟨f, hf, hepoch, _⟩ := h.kept kept (hit_some hhit).1
    exact ⟨_, f, rfl, hf, hepoch, rfl⟩
  | none =>
    cases hshared : s.cache.shared with
    | some i =>
      obtain ⟨hslot, hslotEpoch⟩ := shared_some hshared
      obtain ⟨f, hf, _, hepoch⟩ := h.slot i hslot
      exact ⟨_, f, rfl, hf, Option.some.inj (hepoch.symm.trans hslotEpoch), rfl⟩
    | none => exact ⟨_, _, rfl, List.getElem?_concat_length, rfl, rfl⟩

theorem step_extends {e : Event Answer} (hstep : step source s e = some t) :
    s.Extends t ∧ s.cache.cacheEpoch ≤ t.cache.cacheEpoch := by
  cases e with
  | get =>
    obtain rfl := Option.some.inj hstep
    refine ⟨get_extends s, ?_⟩
    rw [State.get]
    split
    · exact Nat.le_refl _
    · split <;> exact Nat.le_refl _
  | invalidate =>
    obtain rfl := Option.some.inj hstep
    exact ⟨State.Extends.refl s, Nat.le_succ _⟩
  | pass duration =>
    obtain rfl := Option.some.inj hstep
    exact ⟨State.Extends.refl s, Nat.le_refl _⟩
  | receive i answer =>
    obtain ⟨f, outcome, hf, hreply, _, rfl⟩ := receive_some hstep
    exact ⟨extends_put hf (f.grows_receive hreply _) rfl, Nat.le_refl _⟩
  | resume i =>
    obtain ⟨f, reply, hf, hresumed, _, rfl⟩ := resume_some hstep
    refine ⟨extends_put hf (f.grows_resume hresumed s.now) rfl, ?_⟩
    dsimp only
    rw [Reply.resume]
    split
    · rw [Cache.fill]
      split_ifs <;> exact Nat.le_refl _
    · exact Nat.le_refl _
  | settle i =>
    obtain ⟨f, hf, _, _, rfl⟩ := settle_some hstep
    exact ⟨extends_put hf f.grows_settle rfl, by simp⟩

theorem step_calls {e : Event Answer} (h : Coherent source s) (hstep : step source s e = some t) :
    t.calls = s.calls ∨ ∃ (call : Call Value) (f : Fetch Answer Failure Result),
      t.calls = s.calls ++ [call] ∧ t.fetches[call.fetch]? = some f ∧ f.requestEpoch = t.cache.cacheEpoch := by
  cases e with
  | get =>
    obtain rfl := Option.some.inj hstep
    obtain ⟨call, f, hcalls, hf, hepoch, hsame⟩ := h.get_call
    exact .inr ⟨call, f, hcalls, hf, hepoch.trans hsame.symm⟩
  | invalidate =>
    obtain rfl := Option.some.inj hstep
    exact .inl rfl
  | pass duration =>
    obtain rfl := Option.some.inj hstep
    exact .inl rfl
  | receive i answer =>
    obtain ⟨f, outcome, _, _, _, rfl⟩ := receive_some hstep
    exact .inl rfl
  | resume i =>
    obtain ⟨f, reply, _, _, _, rfl⟩ := resume_some hstep
    exact .inl rfl
  | settle i =>
    obtain ⟨f, _, _, _, rfl⟩ := settle_some hstep
    exact .inl rfl

/-- The first `n` fetches are of earlier epochs, and no call after the first `m` is served by one. -/
structure Behind (n m : Nat) (s : State Answer Failure Result Value Expiry) : Prop where
  fetches : n ≤ s.fetches.length
  calls : m ≤ s.calls.length
  old : ∀ (i : Nat) (f : Fetch Answer Failure Result), s.fetches[i]? = some f → i < n →
    f.requestEpoch < s.cache.cacheEpoch
  served : ∀ call ∈ s.calls.drop m, n ≤ call.fetch

theorem Behind.step {n m : Nat} {e : Event Answer} (hcoherent : Coherent source s) (h : Behind n m s)
    (hstep : step source s e = some t) : Behind n m t := by
  obtain ⟨hext, hepoch⟩ := step_extends hstep
  have hold : ∀ (i : Nat) (g : Fetch Answer Failure Result), t.fetches[i]? = some g → i < n →
      g.requestEpoch < t.cache.cacheEpoch := by
    intro i g hg hi
    obtain ⟨f, hf⟩ : ∃ f, s.fetches[i]? = some f :=
      ⟨_, List.getElem?_eq_getElem (Nat.lt_of_lt_of_le hi h.fetches)⟩
    obtain ⟨g', hg', hgrows⟩ := hext i f hf
    obtain rfl : g = g' := by simpa [hg] using hg'
    rw [hgrows.requestEpoch]
    exact Nat.lt_of_lt_of_le (h.old i f hf hi) hepoch
  have hlength : n ≤ t.fetches.length := by
    by_contra hlt
    have hi : t.fetches.length < s.fetches.length := Nat.lt_of_lt_of_le (Nat.lt_of_not_le hlt) h.fetches
    obtain ⟨g, hg, _⟩ := hext _ _ (List.getElem?_eq_getElem hi)
    simp at hg
  obtain hcalls | ⟨call, f, hcalls, hf, hcurrent⟩ := step_calls hcoherent hstep
  · exact ⟨hlength, hcalls ▸ h.calls, hold, hcalls ▸ h.served⟩
  · refine ⟨hlength, ?_, hold, ?_⟩
    · rw [hcalls, List.length_append]
      exact Nat.le_add_right_of_le h.calls
    · rw [hcalls, List.drop_append_of_le_length h.calls]
      intro c hc
      obtain hc | hc := List.mem_append.mp hc
      · exact h.served c hc
      · obtain rfl := List.mem_singleton.mp hc
        by_contra hlt
        have := hold c.fetch f hf (Nat.lt_of_not_le hlt)
        omega

theorem Coherent.behind (h : Coherent source s) :
    Behind s.fetches.length s.calls.length { s with cache := s.cache.invalidate } where
  fetches := Nat.le_refl _
  calls := Nat.le_refl _
  old i f hf _ := Nat.lt_succ_of_le (h.epochs i f hf)
  served call hcall := by simp at hcall

theorem single_flight (h : Coherent source s) (hf : s.fetches[i]? = some f) (hg : s.fetches[j]? = some g)
    (hfs : f.settled = false) (hgs : g.settled = false) (hepoch : f.requestEpoch = g.requestEpoch) : i = j := by
  obtain hlt | heq | hlt := Nat.lt_trichotomy i j
  · simp [(h.ordered i j f g hlt hf hg).2 hepoch] at hfs
  · exact heq
  · simp [(h.ordered j i g f hlt hg hf).2 hepoch.symm] at hgs

theorem behind_run {s₀ : State Answer Failure Result Value Expiry} (h : Coherent source s₀)
    (hrun : run (SharedFetch.step source) { s₀ with cache := s₀.cache.invalidate } events = some t) :
    Coherent source t ∧ Behind s₀.fetches.length s₀.calls.length t :=
  invariant (I := fun s => Coherent source s ∧ Behind s₀.fetches.length s₀.calls.length s)
    (fun _ _ _ hs hstep => ⟨coherent_step hs.1 hstep, hs.2.step hs.1 hstep⟩) ⟨h.invalidate, h.behind⟩ hrun

theorem Behind.cached {n m : Nat} {kept : Kept Value} (h : Behind n m s) (hcoherent : Coherent source s)
    (hkept : s.cache.cached = some kept) : n ≤ kept.fetch := by
  obtain ⟨f, hf, hepoch, _⟩ := hcoherent.kept kept hkept
  by_contra hlt
  have := h.old kept.fetch f hf (Nat.lt_of_not_le hlt)
  omega

theorem Coherent.returned {value : Value} (h : Coherent source s) (hcall : call ∈ s.calls)
    (hreturned : s.returned source call = some (.ok value)) :
    ∃ f reply result, s.fetches[call.fetch]? = some f ∧ f.reply = some reply ∧ reply.outcome = .ok result ∧
      source.value result = value := by
  obtain ⟨f, hf, hcached⟩ := h.served call hcall
  rw [State.returned] at hreturned
  split at hreturned
  · rename_i v hv
    obtain rfl : v = value := by simpa using hreturned
    obtain ⟨reply, result, time, hresumed, hvalue, _⟩ := hcached v hv
    exact ⟨f, reply, result, hf, hresumed.replied, hresumed.outcome, hvalue⟩
  · rw [hf] at hreturned
    dsimp only at hreturned
    split_ifs at hreturned
    obtain ⟨reply, hreply, houtcome⟩ := Option.map_eq_some_iff.mp hreturned
    cases hout : reply.outcome with
    | error failure => simp [hout, Except.map] at houtcome
    | ok result =>
      rw [hout, Except.map] at houtcome
      exact ⟨f, reply, result, hf, hreply, hout, Except.ok.inj houtcome⟩

theorem Coherent.get_after_failure {reply : Reply Answer Failure Result} {failure : Failure}
    (h : Coherent source s) (hf : s.fetches[i]? = some f) (hsettled : f.settled = true)
    (hreply : f.reply = some reply) (hfailed : reply.outcome = .error failure) :
    ∃ call, (s.get source).calls = s.calls ++ [call] ∧ i < call.fetch := by
  -- A fetch before it that is of the current epoch is of the same epoch.
  have hsame : ∀ (j : Nat) (g : Fetch Answer Failure Result), j < i → s.fetches[j]? = some g →
      g.requestEpoch = s.cache.cacheEpoch → g.settled = true ∧ f.requestEpoch = s.cache.cacheEpoch := by
    intro j g hlt hg hcurrent
    obtain ⟨hle, hdone⟩ := h.ordered j i g f hlt hg hf
    have hepoch : f.requestEpoch = s.cache.cacheEpoch := Nat.le_antisymm (h.epochs i f hf) (hcurrent ▸ hle)
    exact ⟨hdone (hcurrent.trans hepoch.symm), hepoch⟩
  rw [State.get]
  cases hhit : s.cache.hit source s.now with
  | some kept =>
    obtain ⟨hcached, husable⟩ := hit_some hhit
    obtain ⟨g, hg, hcurrent, r, result, time, hresumed, _⟩ := h.kept kept hcached
    refine ⟨_, rfl, ?_⟩
    obtain hlt | heq | hlt := Nat.lt_trichotomy kept.fetch i
    · simp [h.outdated kept i f hcached hf hlt (hsame _ g hlt hg hcurrent).2] at husable
    · rw [heq, hf] at hg
      obtain rfl := Option.some.inj hg
      obtain rfl : reply = r := by simpa [hreply] using hresumed.replied
      cases hfailed.symm.trans hresumed.outcome
    · exact hlt
  | none =>
    cases hshared : s.cache.shared with
    | some j =>
      obtain ⟨hslot, hslotEpoch⟩ := shared_some hshared
      obtain ⟨g, hg, hunsettled, hepoch⟩ := h.slot j hslot
      have hcurrent : g.requestEpoch = s.cache.cacheEpoch := Option.some.inj (hepoch.symm.trans hslotEpoch)
      refine ⟨_, rfl, ?_⟩
      obtain hlt | heq | hlt := Nat.lt_trichotomy j i
      · simp [(hsame j g hlt hg hcurrent).1] at hunsettled
      · rw [heq, hf] at hg
        obtain rfl := Option.some.inj hg
        simp [hsettled] at hunsettled
      · exact hlt
    | none => exact ⟨_, rfl, (List.getElem?_eq_some_iff.mp hf).1⟩

theorem length_get (s : State Answer Failure Result Value Expiry) :
    (s.get source).fetches.length ≤ s.fetches.length + 1 := by
  rw [State.get]
  split
  · exact Nat.le_succ _
  · split
    · exact Nat.le_succ _
    · simp

end HomelabApps.Library.SharedFetch
