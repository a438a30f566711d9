import HomelabApps.Library.Transition
import HomelabApps.MiotBridge.PropertyPoller.Subscriptions

universe u

namespace HomelabApps.MiotBridge.PropertyPoller

open HomelabApps.Library.Transition
open HomelabApps.MiotBridge.DeviceCommand (KeyedPropertyResult)

variable {Value : Type u}

structure Turn (Value : Type u) where
  deviceId : String
  result : KeyedPropertyResult Value
  subscribed : Bool
  last : Option (Option Value)
  event : Option (PropertyChangeEvent Value)
  deriving DecidableEq, Repr

/-- `targets` is what the tick has left to poll and `reading` the read in flight; `last` is what
was emitted last of a property since it was last subscribed, `none` when nothing was. -/
structure Session (Value : Type u) where
  poller : Poller Value := {}
  targets : List PollTarget := []
  reading : Option PollTarget := none
  last : String → String → Option (Option Value) := fun _ _ => none
  turns : List (Turn Value) := []

inductive Event (Value : Type u)
  | add (deviceId : String) (properties : List String)
  | remove (deviceId property : String)
  | removeAll (deviceId : String)
  | tick
  | poll
  | answer (miotDeviceId now : Nat) (results : List (KeyedPropertyResult Value))
  | fail

def Session.add (s : Session Value) (deviceId : String) (properties : List String) :
    Session Value :=
  { s with
    poller := s.poller.addSubscriptions deviceId properties
    last := fun d q =>
      if d = deviceId ∧ q ∈ properties ∧ s.poller.isSubscribed d q = false then none else s.last d q }

def Session.readResult [DecidableEq Value] (c : Config) (deviceId : String)
    (miotDeviceId now : Nat) (s : Session Value) (r : KeyedPropertyResult Value) : Session Value :=
  let (poller, event) := s.poller.readResult c deviceId miotDeviceId now r
  { s with
    poller := poller
    last := fun d q =>
      match event with
      | some e => if d = e.deviceId ∧ q = e.property then some e.newValue else s.last d q
      | none => s.last d q
    turns := s.turns ++
      [⟨deviceId, r, s.poller.isSubscribed deviceId r.key, s.last deviceId r.key, event⟩] }

def Session.answer [DecidableEq Value] (c : Config) (s : Session Value) (target : PollTarget)
    (miotDeviceId now : Nat) (results : List (KeyedPropertyResult Value)) : Session Value :=
  let s := { s with reading := none }
  if c.enabled then
    let s := results.foldl (Session.readResult c target.deviceId miotDeviceId now) s
    { s with poller := s.poller.recover target.deviceId }
  else s

def Session.step [DecidableEq Value] (c : Config) (s : Session Value) :
    Event Value → Option (Session Value)
  | .add deviceId properties => some (s.add deviceId properties)
  | .remove deviceId property =>
    some { s with poller := s.poller.removeSubscription deviceId property }
  | .removeAll deviceId => some { s with poller := s.poller.removeAllSubscriptions deviceId }
  | .tick =>
    if c.enabled ∧ s.targets = [] ∧ s.reading = none then
      let (poller, targets) := s.poller.dueDevices
      some { s with poller := poller, targets := targets }
    else none
  | .poll =>
    match s.reading, s.targets with
    | none, target :: targets => some { s with reading := some target, targets := targets }
    | _, _ => none
  | .answer miotDeviceId now results =>
    match s.reading with
    | some target =>
      if (results.map (·.key)).isSublist target.properties then
        some (s.answer c target miotDeviceId now results)
      else none
    | none => none
  | .fail =>
    match s.reading with
    | some target =>
      some { s with poller := s.poller.fault c target.deviceId, reading := none }
    | none => none

/-- What is emitted is emitted of a subscribed property, and with `dispatchOnChange` a value is
emitted when it differs from the last one emitted since the property was last subscribed. -/
structure Turn.Faithful (c : Config) (turn : Turn Value) : Prop where
  of : ∀ e, turn.event = some e →
    e.deviceId = turn.deviceId ∧ e.property = turn.result.key ∧ e.newValue = turn.result.value
  subscribed : turn.event.isSome = true → turn.subscribed = true
  changed : c.dispatchOnChange = true → turn.result.code = 0 →
    ∀ value, turn.result.value = some value →
      (turn.event.isSome = true ↔ turn.subscribed = true ∧ turn.last ≠ some (some value))

def Poller.RemembersSubscribed (p : Poller Value) : Prop :=
  ∀ key, p.lastValues key ≠ none →
    ∃ deviceId property, p.isSubscribed deviceId property = true ∧ key = cacheKey deviceId property

def Session.Own (s : Session Value) : Event Value → Prop
  | .add deviceId properties =>
    ∀ property ∈ properties, ∀ pair ∈ s.poller.pairs,
      cacheKey pair.1 pair.2 = cacheKey deviceId property → pair.1 = deviceId
  | .remove deviceId property =>
    ∀ pair ∈ s.poller.pairs,
      cacheKey pair.1 pair.2 = cacheKey deviceId property → pair.1 = deviceId
  | .removeAll deviceId =>
    ∀ pair ∈ s.poller.pairs, (s.poller.remembered pair.1 pair.2).isSome = true →
      ofDevice deviceId (cacheKey pair.1 pair.2) = true → pair.1 = deviceId
  | _ => True

instance (s : Session Value) (e : Event Value) : Decidable (s.Own e) :=
  match e with
  | .add _ _ => inferInstanceAs (Decidable (∀ _ ∈ _, ∀ _ ∈ _, _))
  | .remove _ _ => inferInstanceAs (Decidable (∀ _ ∈ _, _))
  | .removeAll _ => inferInstanceAs (Decidable (∀ _ ∈ _, _))
  | .tick => .isTrue trivial
  | .poll => .isTrue trivial
  | .answer _ _ _ => .isTrue trivial
  | .fail => .isTrue trivial

structure Session.Good (c : Config) (s : Session Value) : Prop where
  onePerDevice : s.poller.OnePerDevice
  remembers : s.poller.RemembersSubscribed
  apart : ∀ d q d' q', s.poller.isSubscribed d q = true → s.poller.isSubscribed d' q' = true →
    cacheKey d q = cacheKey d' q' → d = d'
  agrees : ∀ d q, s.poller.isSubscribed d q = true → s.poller.remembered d q = (s.last d q).join
  turns : ∀ turn ∈ s.turns, turn.Faithful c

variable {c : Config} {s t : Session Value} {p p' : Poller Value} {deviceId property : String}
  {properties : List String}

theorem good_start : Session.Good c ({} : Session Value) where
  onePerDevice := List.nodup_nil
  remembers _ hkey := absurd rfl hkey
  apart := by rintro d q d' q' ⟨⟩
  agrees := by rintro d q ⟨⟩
  turns := by rintro turn ⟨⟩

theorem isSubscribed_congr (h : p'.subscriptions = p.subscriptions) (d q : String) :
    p'.isSubscribed d q = p.isSubscribed d q := by
  rw [Poller.isSubscribed, Poller.isSubscribed, h]

theorem Session.Good.congr (h : s.Good c) (hsub : t.poller.subscriptions = s.poller.subscriptions)
    (hval : t.poller.lastValues = s.poller.lastValues) (hlast : t.last = s.last)
    (hturns : t.turns = s.turns) : t.Good c where
  onePerDevice := by
    rw [Poller.OnePerDevice, hsub]
    exact h.onePerDevice
  remembers key hkey := by
    obtain ⟨d, q, hd, rfl⟩ := h.remembers key (hval ▸ hkey)
    exact ⟨d, q, (isSubscribed_congr hsub d q).trans hd, rfl⟩
  apart d q d' q' hd hd' :=
    h.apart d q d' q' ((isSubscribed_congr hsub d q).symm.trans hd)
      ((isSubscribed_congr hsub d' q').symm.trans hd')
  agrees d q hd := by
    rw [Poller.remembered, hval, hlast]
    exact h.agrees d q ((isSubscribed_congr hsub d q).symm.trans hd)
  turns := hturns ▸ h.turns

theorem lastValues_addSubscriptions :
    (p.addSubscriptions deviceId properties).lastValues = p.lastValues := by
  unfold Poller.addSubscriptions
  split <;> rfl

theorem Session.Good.forgotten (h : s.Good c)
    (hown : ∀ d q, s.poller.isSubscribed d q = true → cacheKey d q = cacheKey deviceId property →
      d = deviceId)
    (hnew : s.poller.isSubscribed deviceId property ≠ true) :
    s.poller.remembered deviceId property = none := by
  by_contra hremembered
  obtain ⟨d, q, hd, hkey⟩ := h.remembers _ hremembered
  obtain rfl := hown d q hd hkey.symm
  obtain rfl := cacheKey_injective hkey
  exact hnew hd

theorem good_add (h : s.Good c)
    (hown : ∀ property ∈ properties, ∀ d q, s.poller.isSubscribed d q = true →
      cacheKey d q = cacheKey deviceId property → d = deviceId) :
    (s.add deviceId properties).Good c where
  onePerDevice := OnePerDevice.addSubscriptions h.onePerDevice deviceId properties
  remembers key hkey := by
    rw [Session.add, lastValues_addSubscriptions] at hkey
    obtain ⟨d, q, hd, rfl⟩ := h.remembers key hkey
    exact ⟨d, q, (isSubscribed_addSubscriptions h.onePerDevice).mpr (.inl hd), rfl⟩
  apart d q d' q' hd hd' hkey := by
    rcases (isSubscribed_addSubscriptions h.onePerDevice).mp hd with hold | ⟨rfl, hq⟩
    · rcases (isSubscribed_addSubscriptions h.onePerDevice).mp hd' with hold' | ⟨rfl, hq'⟩
      · exact h.apart d q d' q' hold hold' hkey
      · exact hown q' hq' d q hold hkey
    · rcases (isSubscribed_addSubscriptions h.onePerDevice).mp hd' with hold' | ⟨rfl, -⟩
      · exact (hown q hq d' q' hold' hkey.symm).symm
      · rfl
  agrees d q hd := by
    rw [Session.add, Poller.remembered, lastValues_addSubscriptions, ← Poller.remembered]
    dsimp only
    by_cases hold : s.poller.isSubscribed d q = true
    · rw [if_neg fun hnew => by simp [hold] at hnew]
      exact h.agrees d q hold
    · obtain ⟨rfl, hq⟩ :=
        ((isSubscribed_addSubscriptions h.onePerDevice).mp hd).resolve_left hold
      rw [if_pos ⟨rfl, hq, by simpa using hold⟩]
      exact h.forgotten (hown q hq) hold
  turns := h.turns

theorem good_remove (h : s.Good c)
    (hown : ∀ d q, s.poller.isSubscribed d q = true →
      cacheKey d q = cacheKey deviceId property → d = deviceId) :
    Session.Good c { s with poller := s.poller.removeSubscription deviceId property } where
  onePerDevice := OnePerDevice.removeSubscription h.onePerDevice deviceId property
  remembers key hkey := by
    by_cases hsame : key = cacheKey deviceId property
    · exact absurd (by simp [Poller.removeSubscription, hsame]) hkey
    · simp only [Poller.removeSubscription, Function.update_of_ne hsame] at hkey
      obtain ⟨d, q, hd, rfl⟩ := h.remembers key hkey
      refine ⟨d, q, (isSubscribed_removeSubscription h.onePerDevice).mpr ⟨hd, ?_⟩, rfl⟩
      rintro ⟨rfl, rfl⟩
      exact hsame rfl
  apart d q d' q' hd hd' :=
    h.apart d q d' q' ((isSubscribed_removeSubscription h.onePerDevice).mp hd).1
      ((isSubscribed_removeSubscription h.onePerDevice).mp hd').1
  agrees d q hd := by
    obtain ⟨hd, hne⟩ := (isSubscribed_removeSubscription h.onePerDevice).mp hd
    have hkey : cacheKey d q ≠ cacheKey deviceId property := by
      intro hkey
      obtain rfl := hown d q hd hkey
      exact hne ⟨rfl, cacheKey_injective hkey⟩
    simp only [Poller.remembered, Poller.removeSubscription, Function.update_of_ne hkey]
    exact h.agrees d q hd
  turns := h.turns

theorem good_removeAll (h : s.Good c)
    (hown : ∀ d q, s.poller.isSubscribed d q = true → s.poller.remembered d q ≠ none →
      ofDevice deviceId (cacheKey d q) = true → d = deviceId) :
    Session.Good c { s with poller := s.poller.removeAllSubscriptions deviceId } where
  onePerDevice := OnePerDevice.removeAllSubscriptions h.onePerDevice deviceId
  remembers key hkey := by
    simp only [Poller.removeAllSubscriptions, ne_eq, ite_eq_left_iff, Bool.not_eq_true,
      Classical.not_imp] at hkey
    obtain ⟨d, q, hd, rfl⟩ := h.remembers key hkey.2
    refine ⟨d, q, (isSubscribed_removeAllSubscriptions h.onePerDevice).mpr ⟨hd, ?_⟩, rfl⟩
    rintro rfl
    simp [ofDevice_cacheKey] at hkey
  apart d q d' q' hd hd' :=
    h.apart d q d' q' ((isSubscribed_removeAllSubscriptions h.onePerDevice).mp hd).1
      ((isSubscribed_removeAllSubscriptions h.onePerDevice).mp hd').1
  agrees d q hd := by
    obtain ⟨hd, hne⟩ := (isSubscribed_removeAllSubscriptions h.onePerDevice).mp hd
    rw [← h.agrees d q hd]
    simp only [Poller.remembered, Poller.removeAllSubscriptions]
    split
    · rename_i hprefix
      by_contra hremembered
      exact hne (hown d q hd (Ne.symm hremembered) hprefix)
    · rfl
  turns := h.turns

variable {miotDeviceId now : Nat} {r : KeyedPropertyResult Value}
  {results : List (KeyedPropertyResult Value)}

theorem good_remember (h : s.Good c) (hsub : s.poller.isSubscribed deviceId r.key = true)
    (turns : List (Turn Value)) (hturns : ∀ turn ∈ turns, turn.Faithful c) :
    Session.Good c
      { s with
        poller := s.poller.remember deviceId r.key r.value
        last := fun d q => if d = deviceId ∧ q = r.key then some r.value else s.last d q
        turns := turns } where
  onePerDevice := h.onePerDevice
  remembers key hkey := by
    by_cases hsame : key = cacheKey deviceId r.key
    · exact ⟨deviceId, r.key, hsub, hsame⟩
    · simp only [Poller.remember, Function.update_of_ne hsame] at hkey
      exact h.remembers key hkey
  apart := h.apart
  agrees d q hd := by
    by_cases hsame : d = deviceId ∧ q = r.key
    · obtain ⟨rfl, rfl⟩ := hsame
      simp [remembered_remember]
    · have hkey : cacheKey d q ≠ cacheKey deviceId r.key := by
        intro hkey
        obtain rfl := h.apart d q deviceId r.key hd hsub hkey
        exact hsame ⟨rfl, cacheKey_injective hkey⟩
      dsimp only
      rw [if_neg hsame, ← h.agrees d q hd]
      simp only [Poller.remember, Poller.remembered, Function.update_of_ne hkey]
  turns := hturns

variable [DecidableEq Value]

theorem readResult_emits :
    (p.readResult c deviceId miotDeviceId now r).2.isSome = true ↔
      r.code = 0 ∧ p.isSubscribed deviceId r.key = true ∧
        (p.remembered deviceId r.key ≠ r.value ∨ ¬c.dispatchOnChange = true) := by
  unfold Poller.readResult
  split
  · rename_i hcode
    simp [hcode]
  · rename_i hcode
    have hcode : r.code = 0 := Decidable.not_not.mp hcode
    split
    · rename_i hsub
      simp [hsub]
    · rename_i hsub
      have hsub : p.isSubscribed deviceId r.key = true := Decidable.not_not.mp hsub
      dsimp only
      split
      · rename_i hchanged
        exact ⟨fun _ => ⟨hcode, hsub, hchanged⟩, fun _ => rfl⟩
      · rename_i hsame
        exact ⟨by rintro ⟨⟩, fun hemit => absurd hemit.2.2 hsame⟩

theorem faithful_turn (h : s.Good c) : Turn.Faithful c
    ⟨deviceId, r, s.poller.isSubscribed deviceId r.key, s.last deviceId r.key,
      (s.poller.readResult c deviceId miotDeviceId now r).2⟩ where
  of := by
    have hcases := readResult_cases c deviceId miotDeviceId now s.poller r
    dsimp only
    generalize s.poller.readResult c deviceId miotDeviceId now r = after at hcases ⊢
    cases hcases with
    | skipped => rintro _ ⟨⟩
    | unchanged => rintro _ ⟨⟩
    | emitted =>
      rintro _ ⟨⟩
      exact ⟨rfl, rfl, rfl⟩
  subscribed hemitted := (readResult_emits.mp hemitted).2.1
  changed honChange hcode value hvalue := by
    dsimp only at hcode hvalue ⊢
    rw [readResult_emits, hvalue]
    constructor
    · rintro ⟨-, hsub, hchanged⟩
      have hdiffers := hchanged.resolve_right (not_not_intro honChange)
      rw [h.agrees deviceId r.key hsub] at hdiffers
      refine ⟨hsub, fun hlast => hdiffers ?_⟩
      rw [hlast, Option.join_some]
    · rintro ⟨hsub, hlast⟩
      refine ⟨hcode, hsub, .inl ?_⟩
      rw [h.agrees deviceId r.key hsub]
      intro hjoin
      exact hlast (Option.join_eq_some_iff.mp hjoin)

theorem good_readResult (h : s.Good c) :
    (s.readResult c deviceId miotDeviceId now r).Good c := by
  have hturns : ∀ turn ∈ s.turns ++ [⟨deviceId, r, s.poller.isSubscribed deviceId r.key,
      s.last deviceId r.key, (s.poller.readResult c deviceId miotDeviceId now r).2⟩],
      turn.Faithful c := by
    intro turn hturn
    rcases List.mem_append.mp hturn with hturn | hturn
    · exact h.turns turn hturn
    · rw [List.mem_singleton.mp hturn]
      exact faithful_turn h
  have hcases := readResult_cases c deviceId miotDeviceId now s.poller r
  unfold Session.readResult
  generalize s.poller.readResult c deviceId miotDeviceId now r = after at hcases hturns ⊢
  cases hcases with
  | skipped => exact ⟨h.onePerDevice, h.remembers, h.apart, h.agrees, hturns⟩
  | unchanged => exact ⟨h.onePerDevice, h.remembers, h.apart, h.agrees, hturns⟩
  | emitted oldValue hread => exact good_remember h hread.2 _ hturns

theorem good_readResults (h : s.Good c) :
    (results.foldl (Session.readResult c deviceId miotDeviceId now) s).Good c := by
  induction results generalizing s with
  | nil => exact h
  | cons r results ih => exact ih (good_readResult h)

theorem good_step (s : Session Value) (e : Event Value) (t : Session Value) (h : s.Good c)
    (hown : s.Own e) (hstep : s.step c e = some t) : t.Good c := by
  cases e with
  | add deviceId properties =>
    cases hstep
    exact good_add h fun property hproperty d q hd =>
      hown property hproperty (d, q) ((mem_pairs h.onePerDevice).mpr hd)
  | remove deviceId property =>
    cases hstep
    exact good_remove h fun d q hd => hown (d, q) ((mem_pairs h.onePerDevice).mpr hd)
  | removeAll deviceId =>
    cases hstep
    exact good_removeAll h fun d q hd hremembered =>
      hown (d, q) ((mem_pairs h.onePerDevice).mpr hd) (Option.isSome_iff_ne_none.mpr hremembered)
  | tick =>
    obtain ⟨-, hdue⟩ := Option.ite_none_right_eq_some.mp hstep
    cases hdue
    exact h.congr rfl rfl rfl rfl
  | poll =>
    simp only [Session.step] at hstep
    split at hstep
    · cases hstep
      exact h.congr rfl rfl rfl rfl
    · cases hstep
  | answer miotDeviceId now results =>
    simp only [Session.step] at hstep
    split at hstep
    · obtain ⟨-, hanswer⟩ := Option.ite_none_right_eq_some.mp hstep
      obtain rfl := Option.some.inj hanswer
      have hread : Session.Good c { s with reading := none } := h.congr rfl rfl rfl rfl
      unfold Session.answer
      dsimp only
      split
      · exact (good_readResults hread).congr rfl rfl rfl rfl
      · exact hread
    · cases hstep
  | fail =>
    simp only [Session.step] at hstep
    split at hstep
    · cases hstep
      refine h.congr ?_ ?_ rfl rfl <;> unfold Poller.fault <;> dsimp only <;> split <;> rfl
    · cases hstep

theorem memory_faithful {events : List (Event Value)}
    (hown : Along (Session.step c) Session.Own {} events)
    (h : run (Session.step c) {} events = some s) :
    s.poller.RemembersSubscribed ∧ ∀ turn ∈ s.turns, turn.Faithful c := by
  have hgood : s.Good c := (always_of_along good_step good_start hown).last h
  exact ⟨hgood.remembers, hgood.turns⟩

def pollingConfig : Config := ⟨true, true, 3, 3⟩

def fanRead (value : Nat) : KeyedPropertyResult Nat := ⟨"vacuum:mode", 2, 1, some value, 0⟩

def readdedEvents : List (Event Nat) :=
  [.add "a" ["vacuum:mode"], .tick, .poll, .answer 1 0 [fanRead 5], .tick, .poll,
    .remove "a" "vacuum:mode", .add "a" ["vacuum:mode"], .answer 1 1 [fanRead 5], .removeAll "a"]

theorem memory_faithful_readded :
    ∃ s : Session Nat, s.turns.map (fun turn => (turn.last, turn.event.isSome)) = [(none, true), (none, true)] ∧
      s.poller.RemembersSubscribed ∧ ∀ turn ∈ s.turns, turn.Faithful pollingConfig := by
  have hown : Along (Session.step pollingConfig) Session.Own {} readdedEvents := by decide +kernel
  have hturns : (run (Session.step pollingConfig) {} readdedEvents).map
      (fun s => s.turns.map fun turn => (turn.last, turn.event.isSome)) = some [(none, true), (none, true)] := by
    decide +kernel
  obtain ⟨s, hs, hmap⟩ := Option.map_eq_some_iff.mp hturns
  exact ⟨s, hmap, memory_faithful hown hs⟩

def forgottenEvents : List (Event Nat) :=
  [.add "a" ["vacuum:mode"], .tick, .poll, .answer 1 0 [fanRead 5], .removeAll "a:vacuum", .tick, .poll,
    .answer 1 1 [fanRead 5]]

theorem unchanged_value_emitted_again :
    ∃ s : Session Nat, run (Session.step pollingConfig) {} forgottenEvents = some s ∧
      ¬(s.poller.RemembersSubscribed ∧ ∀ turn ∈ s.turns, turn.Faithful pollingConfig) := by
  have hturns : (run (Session.step pollingConfig) {} forgottenEvents).map (·.turns) =
      some
        [⟨"a", fanRead 5, true, none, some ⟨"a", 1, "vacuum:mode", none, some 5, 0⟩⟩,
          ⟨"a", fanRead 5, true, some (some 5), some ⟨"a", 1, "vacuum:mode", none, some 5, 1⟩⟩] := by
    decide +kernel
  obtain ⟨s, hs, hmap⟩ := Option.map_eq_some_iff.mp hturns
  refine ⟨s, hs, fun h => ?_⟩
  have hagain := (h.2 ⟨"a", fanRead 5, true, some (some 5), some ⟨"a", 1, "vacuum:mode", none, some 5, 1⟩⟩
    (by rw [hmap]; simp)).changed rfl rfl 5 rfl
  exact (hagain.mp rfl).2 rfl

end HomelabApps.MiotBridge.PropertyPoller
