import Mathlib.Algebra.Order.Ring.Nat
import HomelabApps.Library.Table
import HomelabApps.Library.Transition
import HomelabApps.MiotBridge.NotificationDispatch

universe u

namespace HomelabApps.MiotBridge.NotificationDispatch

open HomelabApps.Library
open HomelabApps.Library.Transition

variable {Value : Type u}

inductive Event (Value : Type u)
  | receive (payload : NotificationPayload Value)
  | fire
  | disconnect
  | reconnect
  deriving DecidableEq, Repr

structure Reconnect where
  time : Nat
  published : Nat
  deriving DecidableEq, Repr

structure Session (Value : Type u) where
  dispatch : Dispatch Value
  now : Nat
  received : List (NotificationPayload Value) := []
  reconnects : List Reconnect := []
  deriving DecidableEq, Repr

def Session.start (connected : Bool) (now : Nat) : Session Value :=
  { dispatch := { connected := connected }, now := now }

def Session.event (c : Config) (now : Nat) (s : Session Value) : Event Value → Option (Session Value)
  | .receive payload =>
    some { s with
      dispatch := s.dispatch.receive c now payload
      now := now
      received := s.received ++ [payload] }
  | .fire =>
    if s.dispatch.timer.any (· ≤ now) then
      (s.dispatch.fire c now).map fun dispatch => { s with dispatch := dispatch, now := now }
    else none
  | .disconnect => some { s with dispatch := { s.dispatch with connected := false }, now := now }
  | .reconnect =>
    some { s with
      dispatch := s.dispatch.onReconnect c now
      now := now
      reconnects := s.reconnects ++ [⟨now, s.dispatch.published.length⟩] }

def Session.step (c : Config) (s : Session Value) (e : Nat × Event Value) : Option (Session Value) :=
  if s.now ≤ e.1 then s.event c e.1 e.2 else none

def ofKey (k : Nat × String) (payloads : List (NotificationPayload Value)) :
    List (NotificationPayload Value) :=
  payloads.filter (·.key = k)

def Dispatch.handed (s : Dispatch Value) (k : Nat × String) : List (NotificationPayload Value) :=
  ofKey k (s.published.map (·.payload)) ++ (s.queue.find? (·.key = k)).toList

def Dispatch.readyAt (c : Config) (s : Dispatch Value) : Nat :=
  match s.lastPublishAt with
  | none => 0
  | some last => last + c.interval

def Dispatch.Armed (s : Dispatch Value) : Prop :=
  s.connected = true → s.queue ≠ [] → s.timer.isSome

structure Paced (c : Config) (now : Nat) (reconnects : List Reconnect) (s : Dispatch Value) :
    Prop where
  timer : ∀ due, s.timer = some due → s.readyAt c ≤ due
  published : ∀ p ∈ s.published, p.time ≤ now ∧ p.time + c.interval ≤ s.readyAt c
  apart : s.published.Pairwise fun p q => p.time + c.interval ≤ q.time
  reconnected : ∀ r ∈ reconnects,
    r.published ≤ s.published.length ∧ r.time ≤ now ∧ r.time + c.interval ≤ s.readyAt c
  afterReconnect : ∀ r ∈ reconnects, ∀ p ∈ s.published.drop r.published,
    r.time + c.interval ≤ p.time

variable {c : Config} {now later : Nat} {reconnects : List Reconnect} {s : Dispatch Value}
  {payload next : NotificationPayload Value} {queue rest : List (NotificationPayload Value)}
  {k : Nat × String}

theorem delay_eq (c : Config) (now : Nat) (s : Dispatch Value) :
    s.delay c now = s.readyAt c - now := by
  unfold Dispatch.delay Dispatch.readyAt
  cases s.lastPublishAt with
  | none => exact (Nat.zero_sub now).symm
  | some last => rfl

@[simp] theorem readyAt_arm : (s.arm c now).readyAt c = s.readyAt c := rfl

theorem Paced.mono (h : Paced c now reconnects s) (hle : now ≤ later) :
    Paced c later reconnects s where
  timer := h.timer
  published p hp := ⟨(h.published p hp).1.trans hle, (h.published p hp).2⟩
  apart := h.apart
  reconnected r hr :=
    ⟨(h.reconnected r hr).1, (h.reconnected r hr).2.1.trans hle, (h.reconnected r hr).2.2⟩
  afterReconnect := h.afterReconnect

theorem Paced.idle (h : Paced c now reconnects s) (queue : List (NotificationPayload Value))
    (connected : Bool) : Paced c now reconnects { s with queue := queue, timer := none, connected := connected } :=
  ⟨by rintro _ ⟨⟩, h.published, h.apart, h.reconnected, h.afterReconnect⟩

theorem paced_arm (h : Paced c now reconnects s) : Paced c now reconnects (s.arm c now) where
  timer := by
    rintro _ ⟨⟩
    rw [readyAt_arm, delay_eq]
    omega
  published := h.published
  apart := h.apart
  reconnected := h.reconnected
  afterReconnect := h.afterReconnect

theorem paced_send (h : Paced c now reconnects s) (hready : s.readyAt c ≤ now) :
    Paced c now reconnects (s.send now next rest) where
  timer := by rintro _ ⟨⟩
  published p hp := by
    rcases List.mem_append.mp hp with hp | hp
    · exact ⟨(h.published p hp).1, Nat.add_le_add_right (h.published p hp).1 _⟩
    · obtain rfl := List.mem_singleton.mp hp
      exact ⟨le_rfl, le_rfl⟩
  apart := by
    refine List.pairwise_append.mpr ⟨h.apart, List.pairwise_singleton _ _, fun p hp q hq => ?_⟩
    obtain rfl := List.mem_singleton.mp hq
    exact (h.published p hp).2.trans hready
  reconnected r hr := by
    obtain ⟨hlength, htime, -⟩ := h.reconnected r hr
    refine ⟨?_, htime, Nat.add_le_add_right htime _⟩
    rw [Dispatch.send, List.length_append]
    exact hlength.trans (Nat.le_add_right _ _)
  afterReconnect r hr p hp := by
    obtain ⟨hlength, -, htime⟩ := h.reconnected r hr
    rw [Dispatch.send, List.drop_append_of_le_length hlength] at hp
    rcases List.mem_append.mp hp with hp | hp
    · exact h.afterReconnect r hr p hp
    · obtain rfl := List.mem_singleton.mp hp
      exact htime.trans hready

theorem paced_publishFrom (h : Paced c now reconnects s) (hready : s.readyAt c ≤ now)
    (hq : s.queue = queue) :
    Paced c now reconnects (s.publishFrom c now queue) ∧ (s.publishFrom c now queue).Armed := by
  induction queue generalizing s with
  | nil => exact ⟨h.idle s.queue s.connected, fun _ hne => absurd hq hne⟩
  | cons next rest ih =>
    unfold Dispatch.publishFrom
    split
    · have hsent : Paced c now reconnects (s.send now next rest) := paced_send h hready
      cases rest with
      | nil => exact ⟨hsent, fun _ hne => absurd rfl hne⟩
      | cons p ps =>
        dsimp only
        split
        · exact ⟨paced_arm hsent, fun _ _ => rfl⟩
        · rename_i hdelay
          rw [delay_eq, not_lt, Nat.le_zero, Nat.sub_eq_zero_iff_le] at hdelay
          exact ih hsent hdelay rfl
    · rename_i hconnected
      exact ⟨h.idle s.queue s.connected, fun hc => absurd hc hconnected⟩

theorem paced_publishNext (h : Paced c now reconnects s) (hready : s.readyAt c ≤ now) :
    Paced c now reconnects (s.publishNext c now) ∧ (s.publishNext c now).Armed :=
  paced_publishFrom h hready rfl

theorem paced_scheduleNext (h : Paced c now reconnects s) :
    Paced c now reconnects (s.scheduleNext c now) ∧ (s.scheduleNext c now).Armed := by
  unfold Dispatch.scheduleNext
  split
  · rename_i hwait
    refine ⟨h, fun _ hne => ?_⟩
    rcases hwait with htimer | hempty
    · exact htimer
    · exact absurd hempty hne
  · split
    · exact ⟨paced_arm h, fun _ _ => rfl⟩
    · rename_i hdelay
      rw [delay_eq, not_lt, Nat.le_zero, Nat.sub_eq_zero_iff_le] at hdelay
      exact paced_publishNext h hdelay

theorem paced_receive (payload : NotificationPayload Value) (h : Paced c now reconnects s)
    (harmed : s.Armed) :
    Paced c now reconnects (s.receive c now payload) ∧ (s.receive c now payload).Armed := by
  unfold Dispatch.receive
  split
  · exact paced_scheduleNext (s := { s with queue := put s.queue payload })
      ⟨h.timer, h.published, h.apart, h.reconnected, h.afterReconnect⟩
  · exact ⟨h, harmed⟩

theorem paced_onReconnect (h : Paced c now reconnects s) :
    Paced c now (reconnects ++ [⟨now, s.published.length⟩]) (s.onReconnect c now) ∧
      (s.onReconnect c now).Armed := by
  refine paced_scheduleNext ⟨?_, fun p hp => ?_, h.apart, fun r hr => ?_, fun r hr p hp => ?_⟩
  · rintro _ ⟨⟩
  · exact ⟨(h.published p hp).1, Nat.add_le_add_right (h.published p hp).1 _⟩
  · rcases List.mem_append.mp hr with hr | hr
    · exact ⟨(h.reconnected r hr).1, (h.reconnected r hr).2.1,
        Nat.add_le_add_right (h.reconnected r hr).2.1 _⟩
    · obtain rfl := List.mem_singleton.mp hr
      exact ⟨le_rfl, le_rfl, le_rfl⟩
  · rcases List.mem_append.mp hr with hr | hr
    · exact h.afterReconnect r hr p hp
    · obtain rfl := List.mem_singleton.mp hr
      rw [List.drop_length] at hp
      cases hp

theorem ofKey_append (k : Nat × String) (payloads payloads' : List (NotificationPayload Value)) :
    ofKey k (payloads ++ payloads') = ofKey k payloads ++ ofKey k payloads' :=
  List.filter_append _ _

theorem handed_congr {t : Dispatch Value} (hq : t.queue = s.queue) (hp : t.published = s.published) :
    t.handed k = s.handed k := by
  simp [Dispatch.handed, hq, hp]

theorem handed_send (h : OnePerKey (next :: rest)) (hq : s.queue = next :: rest) :
    (s.send now next rest).handed k = s.handed k := by
  have hnext : next.key ∉ rest.map (·.key) := (List.nodup_cons.mp h).1
  simp only [Dispatch.handed, Dispatch.send, hq, List.map_append, ofKey_append, List.find?_cons]
  by_cases hk : next.key = k
  · have hnone : rest.find? (·.key = k) = none := by
      rw [List.find?_eq_none]
      intro p hp hpk
      exact hnext (List.mem_map.mpr ⟨p, hp, (of_decide_eq_true hpk).trans hk.symm⟩)
    simp [hk, hnone, ofKey]
  · simp [hk, ofKey]

/-- What is published or waiting of a property are received values of it in their order, up to
the newest one. -/
structure Faithful (c : Config) (received : List (NotificationPayload Value)) (s : Dispatch Value) :
    Prop where
  onePerKey : OnePerKey s.queue
  enabled : s.queue ≠ [] → c.notificationsEnabled = true
  sublist : ∀ k, (s.handed k).Sublist (ofKey k received)
  newest : c.notificationsEnabled = true → ∀ k, (s.handed k).getLast? = (ofKey k received).getLast?

variable {received : List (NotificationPayload Value)}

theorem Faithful.congr {t : Dispatch Value} (h : Faithful c received s) (hq : t.queue = s.queue)
    (hp : t.published = s.published) : Faithful c received t where
  onePerKey := hq ▸ h.onePerKey
  enabled := hq ▸ h.enabled
  sublist _ := (handed_congr hq hp) ▸ h.sublist _
  newest hen _ := (handed_congr hq hp) ▸ h.newest hen _

theorem stable_faithful : Stable c now (@Faithful Value c received) where
  send {_ next rest} h hq :=
    have hone : OnePerKey (next :: rest) := hq ▸ h.onePerKey
    { onePerKey := (List.nodup_cons.mp hone).2
      enabled := fun _ => h.enabled (hq ▸ List.cons_ne_nil _ _)
      sublist := fun k => (handed_send hone hq) ▸ h.sublist k
      newest := fun hen k => (handed_send hone hq) ▸ h.newest hen k }
  arm h := h.congr rfl rfl
  stop h := h.congr rfl rfl

theorem handed_put (s : Dispatch Value) (payload : NotificationPayload Value) :
    ({ s with queue := put s.queue payload } : Dispatch Value).handed k =
      if payload.key = k then ofKey k (s.published.map (·.payload)) ++ [payload] else s.handed k := by
  simp only [Dispatch.handed, find?_put]
  split <;> rfl

theorem faithful_receive (h : Faithful c received s) :
    Faithful c (received ++ [payload]) (s.receive c now payload) := by
  have hkey : ∀ k, ofKey k [payload] = if payload.key = k then [payload] else [] := by
    intro k
    by_cases hk : payload.key = k <;> simp [ofKey, hk]
  unfold Dispatch.receive
  split
  · rename_i hen
    refine stable_faithful.scheduleNext ⟨h.onePerKey.put payload, fun _ => hen, fun k => ?_, fun _ k => ?_⟩
    · rw [handed_put, ofKey_append, hkey]
      split
      · exact ((List.sublist_append_left _ _).trans (h.sublist k)).append (List.Sublist.refl _)
      · simpa using h.sublist k
    · rw [handed_put, ofKey_append, hkey]
      split
      · simp
      · simpa using h.newest hen k
  · rename_i hen
    refine ⟨h.onePerKey, h.enabled, fun k => ?_, fun hen' => absurd hen' hen⟩
    rw [ofKey_append]
    exact (h.sublist k).trans (List.sublist_append_left _ _)

structure Session.Good (c : Config) (s : Session Value) : Prop where
  paced : Paced c s.now s.reconnects s.dispatch
  armed : s.dispatch.Armed
  faithful : Faithful c s.received s.dispatch

theorem good_start (connected : Bool) (now : Nat) :
    Session.Good c (Session.start connected now : Session Value) where
  paced := ⟨by rintro _ ⟨⟩, by rintro _ ⟨⟩, .nil, by rintro _ ⟨⟩, by rintro _ ⟨⟩⟩
  armed _ hne := absurd rfl hne
  faithful := ⟨List.nodup_nil, fun hne => absurd rfl hne, fun _ => .slnil, fun _ _ => rfl⟩

theorem good_step (s : Session Value) (e : Nat × Event Value) (t : Session Value)
    (h : s.Good c) (hstep : s.step c e = some t) : t.Good c := by
  obtain ⟨now, e⟩ := e
  obtain ⟨hnow, hevent⟩ := Option.ite_none_right_eq_some.mp hstep
  have hpaced : Paced c now s.reconnects s.dispatch := h.paced.mono hnow
  cases e with
  | receive payload =>
    cases hevent
    have hreceive := paced_receive payload hpaced h.armed
    exact ⟨hreceive.1, hreceive.2, faithful_receive h.faithful⟩
  | fire =>
    obtain ⟨htimer, hmap⟩ := Option.ite_none_right_eq_some.mp hevent
    obtain ⟨due, hdue, hle⟩ := (Option.any_eq_true (· ≤ now) _).mp htimer
    obtain ⟨dispatch, hfire, rfl⟩ := Option.map_eq_some_iff.mp hmap
    obtain ⟨-, hpublish⟩ := Option.ite_none_right_eq_some.mp hfire
    obtain rfl := Option.some.inj hpublish
    have hready : s.dispatch.readyAt c ≤ now :=
      (h.paced.timer due hdue).trans (of_decide_eq_true hle)
    have hnext := paced_publishNext hpaced hready
    exact ⟨hnext.1, hnext.2, stable_faithful.publishNext h.faithful⟩
  | disconnect =>
    cases hevent
    exact ⟨⟨hpaced.timer, hpaced.published, hpaced.apart, hpaced.reconnected, hpaced.afterReconnect⟩,
      by rintro ⟨⟩, h.faithful.congr rfl rfl⟩
  | reconnect =>
    cases hevent
    have hreconnect := paced_onReconnect hpaced
    exact ⟨hreconnect.1, hreconnect.2, stable_faithful.scheduleNext (h.faithful.congr rfl rfl)⟩

theorem Session.Good.newest {s : Session Value} (h : s.Good c) :
    ∀ p ∈ s.dispatch.queue, (ofKey p.key s.received).getLast? = some p := by
  intro p hp
  have hfind : s.dispatch.queue.find? (·.key = p.key) = some p :=
    (Table.find?_eq_some_iff h.faithful.onePerKey).mpr ⟨hp, rfl⟩
  rw [← h.faithful.newest (h.faithful.enabled (List.ne_nil_of_mem hp)) p.key, Dispatch.handed, hfind]
  simp

theorem queue_keeps_newest_and_pace {connected : Bool} {now : Nat}
    {events : List (Nat × Event Value)} {s : Session Value}
    (h : run (Session.step c) (Session.start connected now) events = some s) :
    OnePerKey s.dispatch.queue ∧
    (∀ p ∈ s.dispatch.queue, (ofKey p.key s.received).getLast? = some p) ∧
    s.dispatch.published.Pairwise (fun p q => p.time + c.interval ≤ q.time) ∧
    (∀ r ∈ s.reconnects, ∀ p ∈ s.dispatch.published.drop r.published,
      r.time + c.interval ≤ p.time) ∧
    (s.dispatch.connected = true → s.dispatch.queue ≠ [] → s.dispatch.timer.isSome) ∧
    ∀ k, (ofKey k (s.dispatch.published.map (·.payload))).Sublist (ofKey k s.received) ∧
      (c.notificationsEnabled = true → s.dispatch.queue = [] →
        (ofKey k (s.dispatch.published.map (·.payload))).getLast? = (ofKey k s.received).getLast?) := by
  have hgood : s.Good c := invariant good_step (good_start connected now) h
  refine ⟨hgood.faithful.onePerKey, hgood.newest, hgood.paced.apart, hgood.paced.afterReconnect,
    hgood.armed, fun k => ⟨?_, fun hen hdrained => ?_⟩⟩
  · exact (List.sublist_append_left _ _).trans (hgood.faithful.sublist k)
  · have hnewest := hgood.faithful.newest hen k
    rw [Dispatch.handed, hdrained, List.find?_nil, Option.toList_none, List.append_nil] at hnewest
    exact hnewest

def awayEvents : List (Nat × Event Nat) :=
  [(0, .receive ⟨1, "fan", some 1⟩), (5, .receive ⟨1, "fan", some 2⟩), (6, .receive ⟨1, "mode", some 7⟩),
    (7, .disconnect), (10, .fire), (20, .receive ⟨1, "fan", some 3⟩), (25, .reconnect), (35, .fire),
    (45, .fire)]

theorem queue_keeps_newest_and_pace_away :
    ∃ s : Session Nat,
      s.dispatch.published = [⟨0, 1, "fan", some 1⟩, ⟨35, 1, "fan", some 3⟩, ⟨45, 1, "mode", some 7⟩] ∧
      OnePerKey s.dispatch.queue ∧
      (∀ p ∈ s.dispatch.queue, (ofKey p.key s.received).getLast? = some p) ∧
      s.dispatch.published.Pairwise (fun p q => p.time + 10 ≤ q.time) ∧
      (∀ r ∈ s.reconnects, ∀ p ∈ s.dispatch.published.drop r.published, r.time + 10 ≤ p.time) ∧
      (s.dispatch.connected = true → s.dispatch.queue ≠ [] → s.dispatch.timer.isSome) ∧
      ∀ k, (ofKey k (s.dispatch.published.map (·.payload))).Sublist (ofKey k s.received) ∧
        (true = true → s.dispatch.queue = [] →
          (ofKey k (s.dispatch.published.map (·.payload))).getLast? =
            (ofKey k s.received).getLast?) := by
  have h : run (Session.step ⟨true, some 10⟩) (Session.start true 0) awayEvents =
      some ⟨⟨[], none, some 45, true, [⟨0, 1, "fan", some 1⟩, ⟨35, 1, "fan", some 3⟩, ⟨45, 1, "mode", some 7⟩]⟩,
        45, [⟨1, "fan", some 1⟩, ⟨1, "fan", some 2⟩, ⟨1, "mode", some 7⟩, ⟨1, "fan", some 3⟩],
        [⟨25, 1⟩]⟩ := by
    decide
  exact ⟨_, rfl, queue_keeps_newest_and_pace h⟩

end HomelabApps.MiotBridge.NotificationDispatch
