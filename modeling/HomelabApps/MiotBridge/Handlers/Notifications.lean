import HomelabApps.MiotBridge.Handlers

universe u

namespace HomelabApps.MiotBridge.Handlers

open HomelabApps.Library.Transition
open HomelabApps.MiotBridge.PropertyPoller (Poller addProperty)

variable {Value : Type u}

def Handler.subscribing : Handler Value → Option (Answer Value) → Option (String × List String)
  | .notificationPost deviceId properties .getById, some (.device (some _)) => some (deviceId, properties)
  | .notificationPost _ _ .getById, _ => none
  | .notificationPost deviceId properties _, _ => some (deviceId, properties)
  | _, _ => none

def Handler.unsubscribing : Handler Value → Option (Answer Value) → Option (String × Option String)
  | .notificationDelete deviceId _ (.deleteById notification), some _ =>
    some (deviceId, some notification.property)
  | .notificationDelete deviceId _ (.getAllByDeviceId notification), _ =>
    some (deviceId, some notification.property)
  | .notificationDeleteAll deviceId, some _ => some (deviceId, none)
  | .deviceDelete id (.deleteNotifications _), some _ => some (id, none)
  | .deviceDelete id (.delete _), none => some (id, none)
  | _, _ => none

def Task.subscribing : Task Value → Option (String × List String)
  | .waiting handler answer => handler.subscribing answer
  | .settled _ => none

def Task.unsubscribing : Task Value → Option (String × Option String)
  | .waiting handler answer => handler.unsubscribing answer
  | .settled _ => none

def conflict (subscribed : String × List String) (unsubscribed : String × Option String) : Bool :=
  decide (subscribed.1 = unsubscribed.1) &&
    match unsubscribed.2 with
    | some property => decide (property ∈ subscribed.2)
    | none => decide (subscribed.2 ≠ [])

def Task.aboutToSubscribe : Task Value → Option (String × List String)
  | .waiting (.notificationPost deviceId properties .getById) none => some (deviceId, properties)
  | _ => none

def Task.aboutToUnsubscribe : Task Value → Option (String × Option String)
  | .waiting (.notificationDelete deviceId _ (.deleteById notification)) none =>
    some (deviceId, some notification.property)
  | .waiting (.notificationDeleteAll deviceId) none => some (deviceId, none)
  | .waiting (.deviceDelete id (.deleteNotifications _)) none => some (id, none)
  | _ => none

def Handler.unfinished : Handler Value → Option (Answer Value) → Bool
  | .notificationPost _ _ (.create existing created _ _), none => created.any (· ∉ existing)
  | .notificationPost _ _ (.create _ _ _ _), some _ => true
  | .notificationDelete _ _ (.deleteById _), some _ => true
  | .notificationDelete _ _ (.getAllByDeviceId _), _ => true
  | .notificationDeleteAll _, some _ => true
  | .deviceDelete _ (.deleteNotifications _), some _ => true
  | _, _ => false

def Task.unfinished : Task Value → Bool
  | .waiting handler answer => handler.unfinished answer
  | .settled _ => false

def Request.naming : Request Value → Option String
  | .deviceDelete id => some id
  | .notificationPost deviceId _ => some deviceId
  | _ => none

def Task.spelled (castId : String → Option String) : Task Value → Bool
  | .waiting handler _ => handler.request.naming.all fun text => (castId text).all (· = text)
  | .settled _ => true

/-- Properties are not subscribed and unsubscribed at once, devices are named as they are stored, and no call fails in a
handler that has changed the stored notifications and not yet the cache. -/
def Bridge.Apart (castId : String → Option String) (s : Bridge Value) : Event Value → Prop
  | .execute n _ =>
    s.tasks[n]?.all (Task.spelled castId) = true ∧
    ((s.tasks[n]?.bind Task.aboutToSubscribe).all fun subscribed =>
      s.tasks.all fun task => task.unsubscribing.all fun unsubscribed =>
        !conflict subscribed unsubscribed) = true ∧
    ((s.tasks[n]?.bind Task.aboutToUnsubscribe).all fun unsubscribed =>
      s.tasks.all fun task => task.subscribing.all fun subscribed =>
        !conflict subscribed unsubscribed) = true
  | .fail n _ => s.tasks[n]?.any Task.unfinished = false
  | _ => True

instance (castId : String → Option String) (s : Bridge Value) (e : Event Value) : Decidable (s.Apart castId e) :=
  match e with
  | .execute _ _ => inferInstanceAs (Decidable (_ = true ∧ _ = true ∧ _ = true))
  | .fail _ _ => inferInstanceAs (Decidable (_ = false))
  | .start _ => .isTrue trivial
  | .answer _ _ => .isTrue trivial
  | .resume _ => .isTrue trivial

def Bridge.Mirrors (s : Bridge Value) : Prop :=
  s.Idle →
    (∀ deviceId property, s.poller.isSubscribed deviceId property = true ↔
      ∃ notification ∈ s.storage.notifications,
        notification.deviceId = deviceId ∧ notification.property = property) ∧
    ∀ notification ∈ s.storage.notifications, ∃ device ∈ s.storage.devices,
      device.id = notification.deviceId

structure Storage.Sound (s : Storage) : Prop where
  ids : ∀ x ∈ s.notifications, ∀ y ∈ s.notifications, x.id = y.id → x = y
  fresh : ∀ x ∈ s.notifications, x.id < s.nextNotification
  devices : ∀ x ∈ s.notifications, ∃ device ∈ s.devices, device.id = x.deviceId

def Storage.Has (s : Storage) (deviceId property : String) : Prop :=
  ∃ x ∈ s.notifications, x.deviceId = deviceId ∧ x.property = property

structure Subscribing (s : Storage) (deviceId : String) (properties : List String)
    (existing created : List DeviceNotification) (rest : List String) : Prop where
  met : ∀ x ∈ existing, x.deviceId = deviceId ∧ (x.property ∈ properties → x ∈ s.notifications)
  made : ∀ x ∈ created, x.deviceId = deviceId ∧ x.property ∈ properties ∧ x ∈ s.notifications
  todo : ∀ q ∈ rest, q ∈ properties
  covered : ∀ q ∈ properties, (∃ x ∈ created, x.property = q) ∨ q ∈ rest

def Handler.Knows (s : Storage) : Handler Value → Option (Answer Value) → Prop
  | .notificationPost deviceId properties .getAllByDeviceId, some (.notifications existing) =>
    Subscribing s deviceId properties existing [] (properties.foldl addProperty [])
  | .notificationPost deviceId properties (.create existing created property rest), none =>
    Subscribing s deviceId properties existing created (property :: rest)
  | .notificationPost deviceId properties (.create existing created _ rest),
      some (.notification (some x)) =>
    Subscribing s deviceId properties existing (created ++ [x]) rest
  | .notificationDelete _ id .getById, some (.notification (some x)) =>
    x.id = id ∧ x.id < s.nextNotification ∧ ∀ y ∈ s.notifications, y.id = x.id → y = x
  | .notificationDelete deviceId id (.deleteById x), none =>
    x.deviceId = deviceId ∧ x.id = id ∧ x.id < s.nextNotification ∧
      ∀ y ∈ s.notifications, y.id = x.id → y = x
  | .notificationDelete deviceId _ (.getAllByDeviceId x), some (.notifications remaining) =>
    (∀ y ∈ remaining, y.property ≠ x.property) → ¬s.Has deviceId x.property
  | .notificationDeleteAll deviceId, some _ => ∀ property, ¬s.Has deviceId property
  | .deviceDelete id (.deleteNotifications _), some _ => ∀ property, ¬s.Has id property
  | .deviceDelete id (.delete _), none => ∀ property, ¬s.Has id property
  | _, _ => True

def Handler.OwesAdd : Handler Value → Option (Answer Value) → DeviceNotification → Prop
  | .notificationPost _ _ (.create existing created _ _), none, x => x ∈ created ∧ x ∉ existing
  | .notificationPost _ _ (.create existing created _ _), some (.notification (some y)), x =>
    x ∈ created ++ [y] ∧ x ∉ existing
  | _, _, _ => False

def Handler.OwesRemove : Handler Value → Option (Answer Value) → String → String → Prop
  | .notificationDelete deviceId _ (.deleteById x), some _, d, q => d = deviceId ∧ q = x.property
  | .notificationDelete deviceId _ (.getAllByDeviceId x), none, d, q => d = deviceId ∧ q = x.property
  | .notificationDelete deviceId _ (.getAllByDeviceId x), some (.notifications remaining), d, q =>
    d = deviceId ∧ q = x.property ∧ ∀ y ∈ remaining, y.property ≠ x.property
  | .notificationDeleteAll deviceId, some _, d, _ => d = deviceId
  | .deviceDelete id (.deleteNotifications _), some _, d, _ => d = id
  | _, _, _, _ => False

def Task.Knows (s : Storage) : Task Value → Prop
  | .waiting handler answer => handler.Knows s answer
  | .settled _ => True

def Task.OwesAdd : Task Value → DeviceNotification → Prop
  | .waiting handler answer, x => handler.OwesAdd answer x
  | .settled _, _ => False

def Task.OwesRemove : Task Value → String → String → Prop
  | .waiting handler answer, deviceId, property => handler.OwesRemove answer deviceId property
  | .settled _, _, _ => False

/-- Cache and storage agree but for what handlers in progress owe. -/
structure Bridge.Consistent (s : Bridge Value) : Prop where
  onePerDevice : s.poller.OnePerDevice
  sound : s.storage.Sound
  knows : ∀ (n : Nat) task, s.tasks[n]? = some task → task.Knows s.storage
  found : ∀ (n : Nat) task deviceId properties, s.tasks[n]? = some task →
    task.subscribing = some (deviceId, properties) → properties ≠ [] →
      ∃ device ∈ s.storage.devices, device.id = deviceId
  apart : ∀ (n m : Nat) task task' subscribed unsubscribed, s.tasks[n]? = some task →
    s.tasks[m]? = some task' → task.subscribing = some subscribed →
      task'.unsubscribing = some unsubscribed → conflict subscribed unsubscribed = false
  stored : ∀ x ∈ s.storage.notifications, s.poller.isSubscribed x.deviceId x.property = true ∨
    ∃ (n : Nat) (task : Task Value), s.tasks[n]? = some task ∧ task.OwesAdd x
  cached : ∀ deviceId property, s.poller.isSubscribed deviceId property = true →
    s.storage.Has deviceId property ∨
      ∃ (n : Nat) (task : Task Value), s.tasks[n]? = some task ∧ task.OwesRemove deviceId property

variable {s t : Bridge Value} {n : Nat} {old new : Task Value} {storage storage' : Storage}
  {handler : Handler Value} {answer : Option (Answer Value)}

theorem Subscribing.mono {deviceId : String} {properties rest : List String}
    {existing created : List DeviceNotification}
    (h : Subscribing storage deviceId properties existing created rest)
    (hkept : ∀ x ∈ storage.notifications, x.deviceId = deviceId → x.property ∈ properties →
      x ∈ storage'.notifications) :
    Subscribing storage' deviceId properties existing created rest where
  met x hx := ⟨(h.met x hx).1, fun hq => hkept x ((h.met x hx).2 hq) (h.met x hx).1 hq⟩
  made x hx :=
    ⟨(h.made x hx).1, (h.made x hx).2.1, hkept x (h.made x hx).2.2 (h.made x hx).1 (h.made x hx).2.1⟩
  todo := h.todo
  covered := h.covered

theorem Handler.Knows.mono (h : handler.Knows storage answer)
    (hnext : storage.nextNotification ≤ storage'.nextNotification)
    (hold : ∀ x ∈ storage'.notifications, x ∈ storage.notifications ∨ storage.nextNotification ≤ x.id)
    (hkept : ∀ deviceId properties, handler.subscribing answer = some (deviceId, properties) →
      ∀ x ∈ storage.notifications, x.deviceId = deviceId → x.property ∈ properties →
        x ∈ storage'.notifications)
    (hgone : ∀ deviceId property, handler.unsubscribing answer = some (deviceId, property) →
      ∀ x ∈ storage'.notifications, x.deviceId = deviceId → property.all (· = x.property) = true →
        x ∈ storage.notifications) :
    handler.Knows storage' answer := by
  have hhas : ∀ {deviceId : String} {property : Option String},
      handler.unsubscribing answer = some (deviceId, property) →
      ∀ q, property.all (· = q) = true → storage'.Has deviceId q → storage.Has deviceId q := by
    rintro deviceId property hun q hq ⟨x, hx, hid, rfl⟩
    exact ⟨x, hgone deviceId property hun x hx hid hq, hid, rfl⟩
  have hknown : ∀ {x : DeviceNotification}, x.id < storage.nextNotification →
      (∀ y ∈ storage.notifications, y.id = x.id → y = x) →
      x.id < storage'.nextNotification ∧ ∀ y ∈ storage'.notifications, y.id = x.id → y = x := by
    intro x hlt hall
    refine ⟨Nat.lt_of_lt_of_le hlt hnext, fun y hy hid => ?_⟩
    rcases hold y hy with hy | hge
    · exact hall y hy hid
    · omega
  unfold Handler.Knows at h ⊢
  split
  · exact h.mono (hkept _ _ rfl)
  · exact h.mono (hkept _ _ rfl)
  · exact h.mono (hkept _ _ rfl)
  · exact ⟨h.1, hknown h.2.1 h.2.2⟩
  · exact ⟨h.1, h.2.1, hknown h.2.2.1 h.2.2.2⟩
  · exact fun hall hhas' => h hall (hhas rfl _ (by simp) hhas')
  · exact fun q hhas' => h q (hhas rfl q rfl hhas')
  · exact fun q hhas' => h q (hhas rfl q rfl hhas')
  · exact fun q hhas' => h q (hhas rfl q rfl hhas')
  · trivial

theorem task_set {m : Nat} {task : Task Value} (htasks : t.tasks = s.tasks.set n new)
    (h : t.tasks[m]? = some task) : (m = n ∧ task = new) ∨ (m ≠ n ∧ s.tasks[m]? = some task) :=
  @task_put _ s n m new task (by rw [Bridge.put, ← htasks, h])

theorem Bridge.Consistent.resumed (h : s.Consistent) (hold : s.tasks[n]? = some old)
    (htasks : t.tasks = s.tasks.set n new) (hstorage : t.storage = s.storage)
    (hone : t.poller.OnePerDevice) (hknows : new.Knows s.storage)
    (hsub : ∀ subscribed, new.subscribing = some subscribed → old.subscribing = some subscribed)
    (hunsub : ∀ unsubscribed, new.unsubscribing = some unsubscribed →
      old.unsubscribing = some unsubscribed)
    (hstored : ∀ x ∈ s.storage.notifications,
      s.poller.isSubscribed x.deviceId x.property = true ∨ old.OwesAdd x →
        t.poller.isSubscribed x.deviceId x.property = true ∨ new.OwesAdd x)
    (hadded : ∀ deviceId property, t.poller.isSubscribed deviceId property = true →
      s.poller.isSubscribed deviceId property = true ∨ s.storage.Has deviceId property)
    (hremoved : ∀ deviceId property, t.poller.isSubscribed deviceId property = true →
      old.OwesRemove deviceId property →
        s.storage.Has deviceId property ∨ new.OwesRemove deviceId property) :
    t.Consistent where
  onePerDevice := hone
  sound := hstorage ▸ h.sound
  knows m task htask := by
    rw [hstorage]
    rcases task_set htasks htask with ⟨-, rfl⟩ | ⟨-, htask⟩
    · exact hknows
    · exact h.knows m task htask
  found m task deviceId properties htask hsubscribing hne := by
    rw [hstorage]
    rcases task_set htasks htask with ⟨-, rfl⟩ | ⟨-, htask⟩
    · exact h.found n old deviceId properties hold (hsub _ hsubscribing) hne
    · exact h.found m task deviceId properties htask hsubscribing hne
  apart m m' task task' subscribed unsubscribed htask htask' hsubscribing hunsubscribing := by
    obtain ⟨k, before, hbefore, hs⟩ : ∃ (k : Nat) (before : Task Value),
        s.tasks[k]? = some before ∧ before.subscribing = some subscribed := by
      rcases task_set htasks htask with ⟨-, rfl⟩ | ⟨-, htask⟩
      · exact ⟨n, old, hold, hsub _ hsubscribing⟩
      · exact ⟨m, task, htask, hsubscribing⟩
    obtain ⟨k', before', hbefore', hu⟩ : ∃ (k' : Nat) (before' : Task Value),
        s.tasks[k']? = some before' ∧ before'.unsubscribing = some unsubscribed := by
      rcases task_set htasks htask' with ⟨-, rfl⟩ | ⟨-, htask'⟩
      · exact ⟨n, old, hold, hunsub _ hunsubscribing⟩
      · exact ⟨m', task', htask', hunsubscribing⟩
    exact h.apart k k' before before' subscribed unsubscribed hbefore hbefore' hs hu
  stored x hx := by
    have hnew : t.tasks[n]? = some new := by
      rw [htasks, List.getElem?_set_self (List.getElem?_eq_some_iff.mp hold).1]
    have hself : ∀ hor : s.poller.isSubscribed x.deviceId x.property = true ∨ old.OwesAdd x,
        t.poller.isSubscribed x.deviceId x.property = true ∨
          ∃ (m : Nat) (task : Task Value), t.tasks[m]? = some task ∧ task.OwesAdd x :=
      fun hor => (hstored x (hstorage ▸ hx) hor).imp_right fun howes => ⟨n, new, hnew, howes⟩
    rcases h.stored x (hstorage ▸ hx) with hcached | ⟨m, task, htask, howes⟩
    · exact hself (.inl hcached)
    · by_cases hmn : m = n
      · subst hmn
        rw [hold] at htask
        obtain rfl := Option.some.inj htask
        exact hself (.inr howes)
      · refine .inr ⟨m, task, ?_, howes⟩
        rw [htasks, List.getElem?_set_ne (Ne.symm hmn), htask]
  cached deviceId property hcached := by
    have hnew : t.tasks[n]? = some new := by
      rw [htasks, List.getElem?_set_self (List.getElem?_eq_some_iff.mp hold).1]
    rw [hstorage]
    rcases hadded deviceId property hcached with hbefore | hhas
    · rcases h.cached deviceId property hbefore with hhas | ⟨m, task, htask, howes⟩
      · exact .inl hhas
      · by_cases hmn : m = n
        · subst hmn
          rw [hold] at htask
          obtain rfl := Option.some.inj htask
          exact (hremoved deviceId property hcached howes).imp_right fun howes => ⟨m, new, hnew, howes⟩
        · refine .inr ⟨m, task, ?_, howes⟩
          rw [htasks, List.getElem?_set_ne (Ne.symm hmn), htask]
    · exact .inl hhas

theorem conflict_eq_true {deviceId deviceId' : String} {properties : List String}
    {property : Option String} :
    conflict (deviceId, properties) (deviceId', property) = true ↔
      deviceId = deviceId' ∧ ∃ q ∈ properties, property.all (· = q) = true := by
  unfold conflict
  cases property with
  | none =>
    simp only [Bool.and_eq_true, decide_eq_true_eq, Option.all_none, and_true]
    exact and_congr_right fun _ => ⟨List.exists_mem_of_ne_nil properties, fun ⟨_, hq⟩ => List.ne_nil_of_mem hq⟩
  | some q =>
    simp only [Bool.and_eq_true, decide_eq_true_eq, Option.all_some]
    refine and_congr_right fun _ => ⟨fun hq => ⟨q, hq, rfl⟩, ?_⟩
    rintro ⟨q', hq', rfl⟩
    exact hq'

theorem not_both (task : Task Value) : task.subscribing = none ∨ task.unsubscribing = none := by
  cases task with
  | settled error => exact .inl rfl
  | waiting handler answer =>
    cases handler with
    | notificationPost deviceId properties stage => exact .inr rfl
    | _ => exact .inl rfl

theorem Bridge.Consistent.executed (h : s.Consistent) (hold : s.tasks[n]? = some old)
    (hsound : storage.Sound) (hknows : new.Knows storage)
    (hnext : s.storage.nextNotification ≤ storage.nextNotification)
    (hnotes : ∀ x ∈ storage.notifications,
      x ∈ s.storage.notifications ∨ (s.storage.nextNotification ≤ x.id ∧ new.OwesAdd x))
    (hkept : ∀ (m : Nat) task deviceId properties, s.tasks[m]? = some task →
      task.subscribing = some (deviceId, properties) → ∀ x ∈ s.storage.notifications,
        x.deviceId = deviceId → x.property ∈ properties → x ∈ storage.notifications)
    (hgone : ∀ (m : Nat) task deviceId property, s.tasks[m]? = some task →
      task.unsubscribing = some (deviceId, property) → ∀ x ∈ storage.notifications,
        x.deviceId = deviceId → property.all (· = x.property) = true → x ∈ s.storage.notifications)
    (hfound : ∀ (m : Nat) task deviceId properties, s.tasks[m]? = some task →
      task.subscribing = some (deviceId, properties) → properties ≠ [] →
        (∃ device ∈ s.storage.devices, device.id = deviceId) →
          ∃ device ∈ storage.devices, device.id = deviceId)
    (hsub : ∀ deviceId properties, new.subscribing = some (deviceId, properties) →
      (properties ≠ [] → ∃ device ∈ storage.devices, device.id = deviceId) ∧
        ∀ (m : Nat) task unsubscribed, s.tasks[m]? = some task →
          task.unsubscribing = some unsubscribed → conflict (deviceId, properties) unsubscribed = false)
    (hunsub : ∀ unsubscribed, new.unsubscribing = some unsubscribed →
      ∀ (m : Nat) task subscribed, s.tasks[m]? = some task →
        task.subscribing = some subscribed → conflict subscribed unsubscribed = false)
    (hadd : ∀ x ∈ storage.notifications, old.OwesAdd x → new.OwesAdd x)
    (hhas : ∀ deviceId property, s.storage.Has deviceId property →
      storage.Has deviceId property ∨ new.OwesRemove deviceId property)
    (hremove : ∀ deviceId property, old.OwesRemove deviceId property →
      storage.Has deviceId property ∨ new.OwesRemove deviceId property) :
    (Bridge.put { s with storage := storage } n new).Consistent where
  onePerDevice := h.onePerDevice
  sound := hsound
  knows m task htask := by
    rcases task_put htask with ⟨-, rfl⟩ | ⟨-, htask⟩
    · exact hknows
    · have hbefore := h.knows m task htask
      cases task with
      | settled error => trivial
      | waiting handler answer =>
        exact hbefore.mono hnext (fun x hx => (hnotes x hx).imp_right And.left)
          (fun deviceId properties hs => hkept m _ deviceId properties htask hs)
          (fun deviceId property hu => hgone m _ deviceId property htask hu)
  found m task deviceId properties htask hsubscribing hne := by
    rcases task_put htask with ⟨-, rfl⟩ | ⟨-, htask⟩
    · exact (hsub _ _ hsubscribing).1 hne
    · exact hfound m task deviceId properties htask hsubscribing hne
        (h.found m task deviceId properties htask hsubscribing hne)
  apart m m' task task' subscribed unsubscribed htask htask' hsubscribing hunsubscribing := by
    rcases task_put htask with ⟨-, heq⟩ | ⟨-, hbefore⟩
    · rw [heq] at hsubscribing
      rcases task_put htask' with ⟨-, heq'⟩ | ⟨-, hbefore'⟩
      · rw [heq'] at hunsubscribing
        rcases not_both new with hnone | hnone
        · rw [hnone] at hsubscribing
          cases hsubscribing
        · rw [hnone] at hunsubscribing
          cases hunsubscribing
      · exact (hsub _ _ hsubscribing).2 m' task' unsubscribed hbefore' hunsubscribing
    · rcases task_put htask' with ⟨-, heq'⟩ | ⟨-, hbefore'⟩
      · rw [heq'] at hunsubscribing
        exact hunsub _ hunsubscribing m task subscribed hbefore hsubscribing
      · exact h.apart m m' task task' subscribed unsubscribed hbefore hbefore' hsubscribing hunsubscribing
  stored x hx := by
    have hnew := @task_put_self _ { s with storage := storage } n new old hold
    rcases hnotes x hx with hbefore | ⟨-, howes⟩
    · rcases h.stored x hbefore with hcached | ⟨m, task, htask, howes⟩
      · exact .inl hcached
      · by_cases hmn : m = n
        · subst hmn
          rw [hold] at htask
          obtain rfl := Option.some.inj htask
          exact .inr ⟨m, new, hnew, hadd x hx howes⟩
        · exact .inr ⟨m, task, by rw [task_put_of_ne hmn, htask], howes⟩
    · exact .inr ⟨n, new, hnew, howes⟩
  cached deviceId property hcached := by
    have hnew := @task_put_self _ { s with storage := storage } n new old hold
    rcases h.cached deviceId property hcached with hhad | ⟨m, task, htask, howes⟩
    · exact (hhas deviceId property hhad).imp_right fun howes => ⟨n, new, hnew, howes⟩
    · by_cases hmn : m = n
      · subst hmn
        rw [hold] at htask
        obtain rfl := Option.some.inj htask
        exact (hremove deviceId property howes).imp_right fun howes => ⟨m, new, hnew, howes⟩
      · exact .inr ⟨m, task, by rw [task_put_of_ne hmn, htask], howes⟩

end HomelabApps.MiotBridge.Handlers
