import Mathlib.Data.List.Basic
import Mathlib.Data.List.Nodup

universe u

namespace HomelabApps.MiotBridge.NotificationDispatch

variable {Value : Type u}

structure NotificationPayload (Value : Type u) where
  deviceId : Nat
  property : String
  value : Option Value
  deriving DecidableEq, Repr

def NotificationPayload.key (p : NotificationPayload Value) : Nat × String := (p.deviceId, p.property)

structure Published (Value : Type u) where
  time : Nat
  payload : NotificationPayload Value
  deriving DecidableEq, Repr

structure Config where
  notificationsEnabled : Bool
  publishIntervalMs : Option Nat

def DEFAULT_PUBLISH_INTERVAL_MS : Nat := 3000

def Config.interval (c : Config) : Nat := c.publishIntervalMs.getD DEFAULT_PUBLISH_INTERVAL_MS

/-- `timer` is when the armed timer is due, `lastPublishAt` is `none` far in the past, and
`published` is what the broker was sent, oldest first. -/
structure Dispatch (Value : Type u) where
  queue : List (NotificationPayload Value) := []
  timer : Option Nat := none
  lastPublishAt : Option Nat := none
  connected : Bool := true
  published : List (Published Value) := []
  deriving DecidableEq, Repr

def Dispatch.delay (c : Config) (now : Nat) (s : Dispatch Value) : Nat :=
  match s.lastPublishAt with
  | none => 0
  | some last => last + c.interval - now

def Dispatch.arm (c : Config) (now : Nat) (s : Dispatch Value) : Dispatch Value :=
  { s with timer := some (now + s.delay c now) }

def Dispatch.send (now : Nat) (s : Dispatch Value) (next : NotificationPayload Value)
    (rest : List (NotificationPayload Value)) : Dispatch Value :=
  { s with
    queue := rest
    timer := none
    lastPublishAt := some now
    published := s.published ++ [⟨now, next⟩] }

/-- `publishNext` on the queue, with the `scheduleNext` it ends in unrolled: without an interval
it publishes the whole queue. -/
def Dispatch.publishFrom (c : Config) (now : Nat) :
    List (NotificationPayload Value) → Dispatch Value → Dispatch Value
  | [], s => { s with timer := none }
  | next :: rest, s =>
    if s.connected then
      let sent := s.send now next rest
      match rest with
      | [] => sent
      | _ :: _ => if 0 < sent.delay c now then sent.arm c now else sent.publishFrom c now rest
    else { s with timer := none }

def Dispatch.publishNext (c : Config) (now : Nat) (s : Dispatch Value) : Dispatch Value :=
  s.publishFrom c now s.queue

def Dispatch.scheduleNext (c : Config) (now : Nat) (s : Dispatch Value) : Dispatch Value :=
  if s.timer.isSome ∨ s.queue = [] then s
  else if 0 < s.delay c now then s.arm c now
  else s.publishNext c now

/-- A property already waiting has its value replaced in place. -/
def put (queue : List (NotificationPayload Value)) (payload : NotificationPayload Value) :
    List (NotificationPayload Value) :=
  match queue.findIdx? (·.key = payload.key) with
  | some waiting => queue.set waiting payload
  | none => queue ++ [payload]

def Dispatch.enqueue (c : Config) (now : Nat) (s : Dispatch Value)
    (payload : NotificationPayload Value) : Dispatch Value :=
  Dispatch.scheduleNext c now { s with queue := put s.queue payload }

def Dispatch.receive (c : Config) (now : Nat) (s : Dispatch Value)
    (payload : NotificationPayload Value) : Dispatch Value :=
  if c.notificationsEnabled then s.enqueue c now payload else s

def Dispatch.fire (c : Config) (now : Nat) (s : Dispatch Value) : Option (Dispatch Value) :=
  if s.timer.isSome then some (s.publishNext c now) else none

def Dispatch.onReconnect (c : Config) (now : Nat) (s : Dispatch Value) : Dispatch Value :=
  Dispatch.scheduleNext c now { s with connected := true, timer := none, lastPublishAt := some now }

variable {c : Config} {now : Nat} {s : Dispatch Value} {payload next : NotificationPayload Value}
  {queue rest : List (NotificationPayload Value)} {k : Nat × String}

/-- `publishNext` as the source has it: one publish, then the next is scheduled. -/
theorem publishNext_eq : s.publishNext c now =
    if s.connected then
      match s.queue with
      | [] => { s with timer := none }
      | next :: rest => (s.send now next rest).scheduleNext c now
    else { s with timer := none } := by
  obtain ⟨queue, timer, lastPublishAt, connected, published⟩ := s
  cases connected with
  | false => cases queue <;> rfl
  | true =>
    cases queue with
    | nil => rfl
    | cons next rest =>
      cases rest with
      | nil => rfl
      | cons p ps =>
        have hpublish : ∀ sent : Dispatch Value, sent.queue = p :: ps → sent.timer = none →
            sent.scheduleNext c now =
              if 0 < sent.delay c now then sent.arm c now else sent.publishFrom c now (p :: ps) := by
          intro sent hq ht
          simp [Dispatch.scheduleNext, Dispatch.publishNext, hq, ht]
        exact (hpublish _ rfl rfl).symm

structure Stable (c : Config) (now : Nat) (P : Dispatch Value → Prop) : Prop where
  send : ∀ {s next rest}, P s → s.queue = next :: rest → P (s.send now next rest)
  arm : ∀ {s}, P s → P (s.arm c now)
  stop : ∀ {s}, P s → P { s with timer := none }

theorem Stable.publishFrom {P : Dispatch Value → Prop} (hP : Stable c now P) (h : P s)
    (hq : s.queue = queue) : P (s.publishFrom c now queue) := by
  induction queue generalizing s with
  | nil => exact hP.stop h
  | cons next rest ih =>
    unfold Dispatch.publishFrom
    split
    · have hsent : P (s.send now next rest) := hP.send h hq
      cases rest with
      | nil => exact hsent
      | cons p ps =>
        dsimp only
        split
        · exact hP.arm hsent
        · exact ih hsent rfl
    · exact hP.stop h

theorem Stable.publishNext {P : Dispatch Value → Prop} (hP : Stable c now P) (h : P s) :
    P (s.publishNext c now) :=
  hP.publishFrom h rfl

theorem Stable.scheduleNext {P : Dispatch Value → Prop} (hP : Stable c now P) (h : P s) :
    P (s.scheduleNext c now) := by
  unfold Dispatch.scheduleNext
  split
  · exact h
  · split
    · exact hP.arm h
    · exact hP.publishNext h

/-- The value last sent for a property; `none` also when it was sent as `null`. -/
def Dispatch.lastPublished (s : Dispatch Value) (k : Nat × String) : Option Value :=
  (s.published.findRev? (·.payload.key = k)).bind (·.payload.value)

def Dispatch.newest (s : Dispatch Value) (k : Nat × String) : Option Value :=
  match s.queue.find? (·.key = k) with
  | some waiting => waiting.value
  | none => s.lastPublished k

def OnePerKey (queue : List (NotificationPayload Value)) : Prop := (queue.map (·.key)).Nodup

theorem find?_set_findIdx? {i : Nat} (h : queue.findIdx? (·.key = payload.key) = some i) :
    (queue.set i payload).map (·.key) = queue.map (·.key) ∧
      (queue.set i payload).find? (·.key = k) =
        if payload.key = k then some payload else queue.find? (·.key = k) := by
  induction queue generalizing i with
  | nil => simp at h
  | cons p ps ih =>
    rw [List.findIdx?_cons] at h
    split at h
    · rename_i hp
      obtain rfl : 0 = i := Option.some.inj h
      have hp : p.key = payload.key := by simpa using hp
      by_cases hk : payload.key = k <;> simp [hp, hk]
    · rename_i hp
      obtain ⟨j, hj, rfl⟩ := Option.map_eq_some_iff.mp h
      obtain ⟨hmap, hfind⟩ := ih hj
      have hp : p.key ≠ payload.key := by simpa using hp
      refine ⟨by simp [hmap], ?_⟩
      rw [List.set_cons_succ, List.find?_cons, List.find?_cons, hfind]
      by_cases hpk : p.key = k
      · have hne : payload.key ≠ k := fun h => hp (hpk.trans h.symm)
        simp [hpk, hne]
      · simp [hpk]

theorem find?_put : (put queue payload).find? (·.key = k) =
    if payload.key = k then some payload else queue.find? (·.key = k) := by
  unfold put
  split
  · rename_i i hi
    exact (find?_set_findIdx? hi).2
  · rename_i hi
    rw [List.findIdx?_eq_none_iff] at hi
    rw [List.find?_append]
    by_cases hk : payload.key = k
    · have hnone : queue.find? (·.key = k) = none := by
        rw [List.find?_eq_none]
        intro p hp
        have := hi p hp
        simpa [hk] using this
      simp [hk, hnone]
    · simp [hk]

theorem OnePerKey.put (h : OnePerKey queue) (payload : NotificationPayload Value) :
    OnePerKey (put queue payload) := by
  unfold NotificationDispatch.put
  split
  · rename_i i hi
    rw [OnePerKey, (find?_set_findIdx? (k := payload.key) hi).1]
    exact h
  · rename_i hi
    rw [List.findIdx?_eq_none_iff] at hi
    rw [OnePerKey, List.map_append, List.nodup_append]
    refine ⟨h, List.nodup_singleton _, fun a ha b hb => ?_⟩
    obtain ⟨p, hp, rfl⟩ := List.mem_map.mp ha
    obtain rfl : b = payload.key := by simpa using hb
    simpa using hi p hp

theorem newest_send (h : OnePerKey (next :: rest)) (hq : s.queue = next :: rest) :
    (s.send now next rest).newest k = s.newest k := by
  have hnext : next.key ∉ rest.map (·.key) := (List.nodup_cons.mp h).1
  simp only [Dispatch.newest, Dispatch.lastPublished, Dispatch.send, hq, List.find?_cons,
    List.findRev?_eq_find?_reverse, List.reverse_append, List.reverse_singleton,
    List.singleton_append]
  by_cases hk : next.key = k
  · have hnone : rest.find? (·.key = k) = none := by
      rw [List.find?_eq_none]
      intro p hp hpk
      exact hnext (List.mem_map.mpr ⟨p, hp, (of_decide_eq_true hpk).trans hk.symm⟩)
    simp [hk, hnone]
  · simp [hk]

theorem newest_congr {t : Dispatch Value} (hq : t.queue = s.queue) (hp : t.published = s.published) :
    t.newest k = s.newest k := by
  simp [Dispatch.newest, Dispatch.lastPublished, hq, hp]

structure Keeps (s t : Dispatch Value) : Prop where
  onePerKey : OnePerKey t.queue
  newest : ∀ k, t.newest k = s.newest k

theorem stable_keeps (s : Dispatch Value) : Stable c now (Keeps s) where
  send h hq :=
    ⟨(List.nodup_cons.mp (hq ▸ h.onePerKey)).2,
      fun k => (newest_send (hq ▸ h.onePerKey) hq).trans (h.newest k)⟩
  arm h := ⟨h.onePerKey, fun k => (newest_congr rfl rfl).trans (h.newest k)⟩
  stop h := ⟨h.onePerKey, fun k => (newest_congr rfl rfl).trans (h.newest k)⟩

theorem Keeps.refl (h : OnePerKey s.queue) : Keeps s s := ⟨h, fun _ => rfl⟩

theorem keeps_publishNext (h : OnePerKey s.queue) : Keeps s (s.publishNext c now) :=
  (stable_keeps s).publishNext (Keeps.refl h)

theorem keeps_scheduleNext (h : OnePerKey s.queue) : Keeps s (s.scheduleNext c now) :=
  (stable_keeps s).scheduleNext (Keeps.refl h)

theorem keeps_fire {t : Dispatch Value} (h : OnePerKey s.queue) (hfire : s.fire c now = some t) :
    Keeps s t := by
  unfold Dispatch.fire at hfire
  split at hfire
  · cases hfire
    exact keeps_publishNext h
  · cases hfire

theorem onePerKey_receive (h : OnePerKey s.queue) : OnePerKey (s.receive c now payload).queue := by
  unfold Dispatch.receive
  split
  · exact (keeps_scheduleNext (s := { s with queue := put s.queue payload }) (h.put payload)).onePerKey
  · exact h

theorem newest_receive (payload : NotificationPayload Value) (h : OnePerKey s.queue) (hen : c.notificationsEnabled) :
    (s.receive c now payload).newest k = if payload.key = k then payload.value else s.newest k := by
  have hkeep := @keeps_scheduleNext _ c now { s with queue := put s.queue payload } (h.put payload)
  rw [Dispatch.receive, if_pos hen]
  refine (hkeep.newest k).trans ?_
  simp only [Dispatch.newest, Dispatch.lastPublished, find?_put]
  by_cases hk : payload.key = k <;> simp [hk]

theorem newest_drained (h : s.queue = []) : s.newest k = s.lastPublished k := by
  simp [Dispatch.newest, h]

end HomelabApps.MiotBridge.NotificationDispatch
