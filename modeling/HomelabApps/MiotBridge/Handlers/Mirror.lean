import HomelabApps.MiotBridge.Handlers.Notifications

universe u

namespace HomelabApps.MiotBridge.Handlers

open HomelabApps.Library.Transition
open HomelabApps.MiotBridge.DeviceCommand (SimplifiedMiotSpec)
open HomelabApps.MiotBridge.PropertyPoller

variable {Value : Type u}

structure Task.Bystander (task : Task Value) : Prop where
  knows : ∀ s, task.Knows s
  subscribing : task.subscribing = none
  unsubscribing : task.unsubscribing = none
  owesAdd : ∀ x, ¬task.OwesAdd x
  owesRemove : ∀ deviceId property, ¬task.OwesRemove deviceId property

def Request.unrelated : Request Value → Bool
  | .devicePost _ => true
  | .execute _ => true
  | .executeRaw _ _ => true
  | .getProperties _ _ => true
  | _ => false

variable {s t : Bridge Value} {n : Nat} {old new : Task Value} {storage storage' : Storage}
  {handler : Handler Value} {answer : Option (Answer Value)} {castId : String → Option String}

theorem bystander_settled (error : Option String) : (Task.settled error : Task Value).Bystander where
  knows _ := trivial
  subscribing := rfl
  unsubscribing := rfl
  owesAdd _ := id
  owesRemove _ _ := id

theorem bystander_unrelated (h : handler.request.unrelated = true) (answer : Option (Answer Value)) :
    (Task.waiting handler answer).Bystander := by
  cases handler with
  | devicePost request stage => exact ⟨fun _ => trivial, rfl, rfl, fun _ => id, fun _ _ => id⟩
  | execute request stage => exact ⟨fun _ => trivial, rfl, rfl, fun _ => id, fun _ _ => id⟩
  | executeRaw deviceId invalid => exact ⟨fun _ => trivial, rfl, rfl, fun _ => id, fun _ _ => id⟩
  | getProperties storageId keys stage => exact ⟨fun _ => trivial, rfl, rfl, fun _ => id, fun _ _ => id⟩
  | _ => cases h

theorem bystander_serves {task : Task Value} {request : Request Value} (h : task.Serves request)
    (hrequest : request.unrelated = true) : task.Bystander := by
  cases task with
  | waiting handler answer =>
    obtain ⟨rfl, rfl⟩ := h
    exact bystander_unrelated hrequest none
  | settled error => exact bystander_settled error

theorem bystander_start (request : Request Value) :
    (Task.waiting request.handler none).Bystander := by
  cases request <;> exact ⟨fun _ => trivial, rfl, rfl, fun _ => id, fun _ _ => id⟩

theorem Bridge.Consistent.quiet (h : s.Consistent) (hold : s.tasks[n]? = some old)
    (htasks : t.tasks = s.tasks.set n new) (hstorage : t.storage = s.storage)
    (hpoller : t.poller = s.poller) (hknows : new.Knows s.storage)
    (hsub : ∀ subscribed, new.subscribing = some subscribed → old.subscribing = some subscribed)
    (hunsub : ∀ unsubscribed, new.unsubscribing = some unsubscribed →
      old.unsubscribing = some unsubscribed)
    (hadd : ∀ x, old.OwesAdd x → new.OwesAdd x)
    (hremove : ∀ deviceId property, old.OwesRemove deviceId property →
      s.storage.Has deviceId property ∨ new.OwesRemove deviceId property) : t.Consistent := by
  refine h.resumed hold htasks hstorage (hpoller ▸ h.onePerDevice) hknows hsub hunsub ?_ ?_ ?_
  · intro x _ hor
    rw [hpoller]
    exact hor.imp_right (hadd x)
  · intro deviceId property hcached
    exact .inl (hpoller ▸ hcached)
  · intro deviceId property _ howes
    exact hremove deviceId property howes

theorem Bridge.Consistent.left (h : s.Consistent) (hold : s.tasks[n]? = some old)
    (htasks : t.tasks = s.tasks.set n new) (hstorage : t.storage = s.storage)
    (hpoller : t.poller = s.poller) (hnew : new.Bystander) (hadd : ∀ x, ¬old.OwesAdd x)
    (hremove : ∀ deviceId property, old.OwesRemove deviceId property → s.storage.Has deviceId property) :
    t.Consistent := by
  refine h.quiet hold htasks hstorage hpoller (hnew.knows _) ?_ ?_ ?_ ?_
  · intro subscribed hs
    rw [hnew.subscribing] at hs
    cases hs
  · intro unsubscribed hu
    rw [hnew.unsubscribing] at hu
    cases hu
  · exact fun x howes => absurd howes (hadd x)
  · exact fun deviceId property howes => .inl (hremove deviceId property howes)

theorem consistent_start (h : s.Consistent) (request : Request Value) :
    Bridge.Consistent { s with tasks := s.tasks ++ [.waiting request.handler none] } := by
  have hnew := bystander_start request
  have hkept : ∀ {m : Nat} {task : Task Value}, s.tasks[m]? = some task →
      (s.tasks ++ [.waiting request.handler none])[m]? = some task := by
    intro m task htask
    rw [List.getElem?_append_left (List.getElem?_eq_some_iff.mp htask).1, htask]
  refine ⟨h.onePerDevice, h.sound, ?_, ?_, ?_, ?_, ?_⟩
  · intro m task htask
    rcases Library.getElem?_concat_cases htask with htask | ⟨-, rfl⟩
    · exact h.knows m task htask
    · exact hnew.knows _
  · intro m task deviceId properties htask hs hne
    rcases Library.getElem?_concat_cases htask with htask | ⟨-, rfl⟩
    · exact h.found m task deviceId properties htask hs hne
    · rw [hnew.subscribing] at hs
      cases hs
  · intro m m' task task' subscribed unsubscribed htask htask' hs hu
    rcases Library.getElem?_concat_cases htask with htask | ⟨-, rfl⟩
    · rcases Library.getElem?_concat_cases htask' with htask' | ⟨-, rfl⟩
      · exact h.apart m m' task task' subscribed unsubscribed htask htask' hs hu
      · rw [hnew.unsubscribing] at hu
        cases hu
    · rw [hnew.subscribing] at hs
      cases hs
  · intro x hx
    exact (h.stored x hx).imp_right fun ⟨m, task, htask, howes⟩ => ⟨m, task, hkept htask, howes⟩
  · intro deviceId property hcached
    exact (h.cached deviceId property hcached).imp_right
      fun ⟨m, task, htask, howes⟩ => ⟨m, task, hkept htask, howes⟩

variable {deviceId : String} {properties rest : List String}
  {existing created : List DeviceNotification}

theorem subscribeFrom_cases (h : Subscribing storage deviceId properties existing created rest) :
    ((subscribeFrom deviceId properties existing created rest : Effect × Task Value) =
        (.addSubscriptions deviceId properties, .settled none) ∧
      ∀ q ∈ properties, storage.Has deviceId q) ∨
    ∃ created' property rest',
      (subscribeFrom deviceId properties existing created rest : Effect × Task Value) =
        (.nothing,
          .waiting (.notificationPost deviceId properties (.create existing created' property rest')) none) ∧
      Subscribing storage deviceId properties existing created' (property :: rest') ∧
      ∀ x ∈ created, x ∈ created' := by
  induction rest generalizing created with
  | nil =>
    refine .inl ⟨rfl, fun q hq => ?_⟩
    rcases h.covered q hq with ⟨x, hx, rfl⟩ | hrest
    · exact ⟨x, (h.made x hx).2.2, (h.made x hx).1, rfl⟩
    · cases hrest
  | cons property rest ih =>
    unfold subscribeFrom
    split
    · rename_i duplicate hduplicate
      have hmem := List.mem_of_find?_eq_some hduplicate
      have hproperty : duplicate.property = property := by simpa using List.find?_some hduplicate
      have hin : duplicate.property ∈ properties := hproperty ▸ h.todo property List.mem_cons_self
      have hnext : Subscribing storage deviceId properties existing (created ++ [duplicate]) rest := by
        refine ⟨h.met, ?_, fun q hq => h.todo q (List.mem_cons_of_mem _ hq), ?_⟩
        · intro x hx
          rcases List.mem_append.mp hx with hx | hx
          · exact h.made x hx
          · obtain rfl := List.mem_singleton.mp hx
            exact ⟨(h.met x hmem).1, hin, (h.met x hmem).2 hin⟩
        · intro q hq
          rcases h.covered q hq with ⟨x, hx, hxq⟩ | hrest
          · exact .inl ⟨x, List.mem_append_left _ hx, hxq⟩
          · rcases List.mem_cons.mp hrest with rfl | hrest
            · exact .inl ⟨duplicate, List.mem_append_right _ List.mem_cons_self, hproperty⟩
            · exact .inr hrest
      refine (ih hnext).imp_right ?_
      rintro ⟨created', property', rest', heq, hsub, hkept⟩
      exact ⟨created', property', rest', heq, hsub, fun x hx => hkept x (List.mem_append_left _ hx)⟩
    · exact .inr ⟨created, property, rest, rfl, h, fun x hx => hx⟩

theorem Bridge.Consistent.subscribed (h : s.Consistent) (hold : s.tasks[n]? = some old)
    (hsub : Subscribing s.storage deviceId properties existing created rest)
    (hsubscribing : old.subscribing = some (deviceId, properties))
    (hadd : ∀ x, old.OwesAdd x → x ∈ created ∧ x ∉ existing)
    (hremove : ∀ deviceId property, ¬old.OwesRemove deviceId property)
    {effect : Effect} (heq : subscribeFrom deviceId properties existing created rest = (effect, new)) :
    ((s.put n new).apply effect).Consistent := by
  rcases subscribeFrom_cases hsub with ⟨heq', hhas⟩ | ⟨created', property, rest', heq', hsub', hkept⟩
  · rw [heq'] at heq
    obtain ⟨rfl, rfl⟩ := Prod.mk.inj heq
    refine h.resumed hold (tasks_apply ..) (storage_apply ..) (OnePerDevice.addSubscriptions h.onePerDevice _ _)
      trivial
      (by rintro _ ⟨⟩) (by rintro _ ⟨⟩) ?_ ?_ ?_
    · intro x hx hor
      refine .inl ((isSubscribed_addSubscriptions h.onePerDevice).mpr (hor.imp_right fun howes => ?_))
      have hmade := hsub.made x (hadd x howes).1
      exact ⟨hmade.1, hmade.2.1⟩
    · intro d q hcached
      refine ((isSubscribed_addSubscriptions h.onePerDevice).mp hcached).imp_right ?_
      rintro ⟨rfl, hq⟩
      exact hhas q hq
    · exact fun d q _ howes => absurd howes (hremove d q)
  · rw [heq'] at heq
    obtain ⟨rfl, rfl⟩ := Prod.mk.inj heq
    refine h.quiet hold rfl rfl rfl hsub' ?_ (by rintro _ ⟨⟩) ?_ ?_
    · rintro subscribed ⟨⟩
      exact hsubscribing
    · exact fun x howes => ⟨hkept x (hadd x howes).1, (hadd x howes).2⟩
    · exact fun d q howes => absurd howes (hremove d q)

theorem poller_resume_unrelated {answer : Answer Value} {effect : Effect}
    (h : handler.resume answer = some (effect, new)) (hrequest : handler.request.unrelated = true) :
    (s.apply effect).poller = s.poller := by
  have hquiet : effect = .nothing ∨ ∃ device, effect = .send device := by
    cases handler with
    | devicePost request stage =>
      simp only [Handler.resume] at h
      unfold DevicePost.resume at h
      split at h <;> cases h <;> exact .inl rfl
    | execute request stage =>
      simp only [Handler.resume] at h
      unfold resumeExecute at h
      split at h
      · cases h
        exact .inl rfl
      · cases h
        exact .inl rfl
      · split at h
        · cases h
          exact .inl rfl
        · cases h
          exact .inr ⟨_, rfl⟩
      · cases h
    | executeRaw deviceId invalid =>
      simp only [Handler.resume] at h
      unfold resumeExecuteRaw at h
      split at h
      · cases h
        exact .inl rfl
      · split at h
        · cases h
          exact .inl rfl
        · cases h
          exact .inr ⟨_, rfl⟩
      · cases h
    | getProperties storageId keys stage =>
      simp only [Handler.resume] at h
      unfold resumeGetProperties at h
      split at h
      · cases h
        exact .inl rfl
      · cases h
        exact .inl rfl
      · cases h
        split
        · exact .inl rfl
        · exact .inr ⟨_, rfl⟩
      · cases h
    | _ => cases hrequest
  rcases hquiet with rfl | ⟨device, rfl⟩ <;> rfl

theorem Bridge.Consistent.removedAll (h : s.Consistent) (hold : s.tasks[n]? = some old)
    (hknows : new.Knows s.storage) (hsub : new.subscribing = none)
    (hunsub : ∀ unsubscribed, new.unsubscribing = some unsubscribed →
      old.unsubscribing = some unsubscribed)
    (hgone : ∀ property, ¬s.storage.Has deviceId property) (hadd : ∀ x, ¬old.OwesAdd x)
    (hremove : ∀ d property, old.OwesRemove d property → d = deviceId) :
    ((s.put n new).apply (.removeAllSubscriptions deviceId)).Consistent := by
  refine h.resumed hold rfl rfl (OnePerDevice.removeAllSubscriptions h.onePerDevice _) hknows
    (fun _ hs => ?_) hunsub ?_ ?_ ?_
  · rw [hsub] at hs
    cases hs
  · intro x hx hor
    refine .inl ((isSubscribed_removeAllSubscriptions h.onePerDevice).mpr ⟨?_, fun hid => ?_⟩)
    · exact hor.resolve_right (hadd x)
    · exact hgone x.property ⟨x, hx, hid, rfl⟩
  · exact fun d q hcached => .inl ((isSubscribed_removeAllSubscriptions h.onePerDevice).mp hcached).1
  · intro d q hcached howes
    exact absurd (hremove d q howes) ((isSubscribed_removeAllSubscriptions h.onePerDevice).mp hcached).2

theorem consistent_resume {answer : Answer Value} {effect : Effect} (h : s.Consistent)
    (htask : s.tasks[n]? = some (.waiting handler (some answer)))
    (hresume : handler.resume answer = some (effect, new)) :
    ((s.put n new).apply effect).Consistent := by
  by_cases hrequest : handler.request.unrelated = true
  · have hnew := bystander_serves (serves_resume hresume) hrequest
    have hbefore := bystander_unrelated hrequest (some answer)
    exact h.left htask (tasks_apply ..) (storage_apply ..) (poller_resume_unrelated hresume hrequest) hnew
      hbefore.owesAdd fun d q howes => absurd howes (hbefore.owesRemove d q)
  have hknows := h.knows n _ htask
  cases handler with
  | deviceDelete storageId stage =>
    simp only [Handler.resume] at hresume
    unfold DeviceDelete.resume at hresume
    split at hresume
    · cases hresume
      exact h.left htask rfl rfl rfl (bystander_settled _) (fun _ => id) fun _ _ howes => howes.elim
    · cases hresume
      exact h.quiet htask rfl rfl rfl trivial (by rintro _ ⟨⟩) (by rintro _ ⟨⟩)
        (fun _ howes => howes) fun _ _ howes => howes.elim
    · cases hresume
      exact h.removedAll htask hknows rfl (fun _ hu => hu) hknows (fun _ => id) fun _ _ howes => howes
    · cases hresume
      exact h.left htask rfl rfl rfl (bystander_settled _) (fun _ => id) fun _ _ howes => howes.elim
    · cases hresume
  | notificationPost deviceId properties stage =>
    simp only [Handler.resume] at hresume
    unfold NotificationPost.resume at hresume
    split at hresume
    · cases hresume
      exact h.left htask rfl rfl rfl (bystander_settled _) (fun _ => id) fun _ _ howes => howes.elim
    · cases hresume
      exact h.quiet htask rfl rfl rfl trivial (fun _ hs => hs) (by rintro _ ⟨⟩)
        (fun _ howes => howes) fun _ _ howes => howes.elim
    · split at hresume
      · cases hresume
        exact h.left htask rfl rfl rfl (bystander_settled _) (fun _ => id) fun _ _ howes => howes.elim
      · cases hresume
        exact h.quiet htask rfl rfl rfl trivial (fun _ hs => hs) (by rintro _ ⟨⟩)
          (fun _ howes => howes) fun _ _ howes => howes.elim
    · exact h.subscribed htask hknows rfl (fun _ howes => howes.elim) (fun _ _ => id)
        (Option.some.inj hresume)
    · exact h.subscribed htask hknows rfl (fun _ howes => howes) (fun _ _ => id) (Option.some.inj hresume)
    · cases hresume
  | notificationDelete deviceId notificationId stage =>
    simp only [Handler.resume] at hresume
    unfold NotificationDelete.resume at hresume
    split at hresume
    · cases hresume
      exact h.left htask rfl rfl rfl (bystander_settled _) (fun _ => id) fun _ _ howes => howes.elim
    · split at hresume
      · cases hresume
        exact h.left htask rfl rfl rfl (bystander_settled _) (fun _ => id) fun _ _ howes => howes.elim
      · rename_i hdevice
        cases hresume
        exact h.quiet htask rfl rfl rfl ⟨not_not.mp hdevice, hknows⟩ (by rintro _ ⟨⟩)
          (by rintro _ ⟨⟩) (fun _ howes => howes) fun _ _ howes => howes.elim
    · cases hresume
      exact h.quiet htask rfl rfl rfl trivial (by rintro _ ⟨⟩) (fun _ hu => hu)
        (fun _ howes => howes) fun _ _ howes => .inr howes
    · rename_i notification remaining
      split at hresume
      · rename_i hany
        cases hresume
        refine h.left htask rfl rfl rfl (bystander_settled _) (fun _ => id) ?_
        rintro d q ⟨rfl, rfl, hall⟩
        obtain ⟨y, hy, hproperty⟩ := List.any_eq_true.mp hany
        exact absurd (by simpa using hproperty) (hall y hy)
      · rename_i hany
        cases hresume
        have hall : ∀ y ∈ remaining, y.property ≠ notification.property := by
          intro y hy heq
          exact hany (List.any_eq_true.mpr ⟨y, hy, by simpa using heq⟩)
        refine h.resumed htask rfl rfl (OnePerDevice.removeSubscription h.onePerDevice _ _) trivial
          (by rintro _ ⟨⟩) (by rintro _ ⟨⟩) ?_ ?_ ?_
        · intro x hx hor
          refine .inl ((isSubscribed_removeSubscription h.onePerDevice).mpr ⟨hor.resolve_right id, ?_⟩)
          rintro ⟨hid, hproperty⟩
          exact hknows hall ⟨x, hx, hid, hproperty⟩
        · exact fun d q hcached => .inl ((isSubscribed_removeSubscription h.onePerDevice).mp hcached).1
        · rintro d q hcached ⟨rfl, rfl, -⟩
          exact absurd ⟨rfl, rfl⟩ ((isSubscribed_removeSubscription h.onePerDevice).mp hcached).2
    · cases hresume
  | notificationDeleteAll deviceId =>
    cases answer with
    | done =>
      cases hresume
      exact h.removedAll htask trivial rfl (by rintro _ ⟨⟩) hknows (fun _ => id)
        fun _ _ howes => howes
    | _ => cases hresume
  | _ => exact absurd rfl hrequest

theorem Bridge.Apart.subscribe {id : String} {subscribed : String × List String}
    (h : s.Apart castId (.execute n id)) (hold : s.tasks[n]? = some old)
    (habout : old.aboutToSubscribe = some subscribed) (m : Nat) (task : Task Value)
    (unsubscribed : String × Option String) (htask : s.tasks[m]? = some task)
    (hu : task.unsubscribing = some unsubscribed) : conflict subscribed unsubscribed = false := by
  have hall := h.2.1
  rw [hold, Option.bind_some, habout, Option.all_some, List.all_eq_true] at hall
  have hone := hall task (List.mem_of_getElem? htask)
  rw [hu, Option.all_some, Bool.not_eq_true'] at hone
  exact hone

theorem Bridge.Apart.unsubscribe {id : String} {unsubscribed : String × Option String}
    (h : s.Apart castId (.execute n id)) (hold : s.tasks[n]? = some old)
    (habout : old.aboutToUnsubscribe = some unsubscribed) (m : Nat) (task : Task Value)
    (subscribed : String × List String) (htask : s.tasks[m]? = some task)
    (hs : task.subscribing = some subscribed) : conflict subscribed unsubscribed = false := by
  have hall := h.2.2
  rw [hold, Option.bind_some, habout, Option.all_some, List.all_eq_true] at hall
  have hone := hall task (List.mem_of_getElem? htask)
  rw [hs, Option.all_some, Bool.not_eq_true'] at hone
  exact hone

theorem Bridge.Apart.spelled {id : String} {text stored : String} (h : s.Apart castId (.execute n id))
    (hold : s.tasks[n]? = some (.waiting handler none)) (hnaming : handler.request.naming = some text)
    (hcast : castId text = some stored) : stored = text := by
  have hall := h.1
  rw [hold, Option.all_some, Task.spelled, hnaming, Option.all_some, hcast, Option.all_some] at hall
  exact of_decide_eq_true hall

theorem Storage.Sound.deleted (h : storage.Sound) (p : DeviceNotification → Bool) :
    Storage.Sound { storage with notifications := storage.notifications.filter p } where
  ids x hx y hy := h.ids x (List.mem_of_mem_filter hx) y (List.mem_of_mem_filter hy)
  fresh x hx := h.fresh x (List.mem_of_mem_filter hx)
  devices x hx := h.devices x (List.mem_of_mem_filter hx)

theorem Bridge.Consistent.deleted {property : Option String} {p : DeviceNotification → Bool}
    (h : s.Consistent) (hold : s.tasks[n]? = some old)
    (hp : ∀ x ∈ s.storage.notifications, p x = false →
      x.deviceId = deviceId ∧ property.all (· = x.property) = true)
    (hknows : new.Knows { s.storage with notifications := s.storage.notifications.filter p })
    (hsub : new.subscribing = none) (hunsub : new.unsubscribing = some (deviceId, property))
    (hapart : ∀ (m : Nat) task subscribed, s.tasks[m]? = some task →
      task.subscribing = some subscribed → conflict subscribed (deviceId, property) = false)
    (hadd : ∀ x, ¬old.OwesAdd x) (hremove : ∀ d q, ¬old.OwesRemove d q)
    (howes : ∀ q, property.all (· = q) = true → new.OwesRemove deviceId q) :
    (Bridge.put
      { s with storage := { s.storage with notifications := s.storage.notifications.filter p } }
      n new).Consistent := by
  refine h.executed hold (h.sound.deleted p) hknows (Nat.le_refl _) ?_ ?_ ?_ ?_ ?_ ?_ ?_ ?_ ?_
  · exact fun x hx => .inl (List.mem_of_mem_filter hx)
  · intro m task d properties htask hs x hx hid hproperty
    refine List.mem_filter.mpr ⟨hx, Bool.of_not_eq_false fun hpx => ?_⟩
    obtain ⟨hid', hall⟩ := hp x hx hpx
    have hconflict : conflict (d, properties) (deviceId, property) = true :=
      conflict_eq_true.mpr ⟨hid.symm.trans hid', x.property, hproperty, hall⟩
    rw [hapart m task (d, properties) htask hs] at hconflict
    cases hconflict
  · exact fun m task d q _ _ x hx _ _ => List.mem_of_mem_filter hx
  · exact fun m task d properties _ _ _ hfound => hfound
  · intro d properties hs
    rw [hsub] at hs
    cases hs
  · intro unsubscribed hu m task subscribed htask hs
    rw [hunsub] at hu
    obtain rfl := Option.some.inj hu
    exact hapart m task subscribed htask hs
  · exact fun x _ howes => absurd howes (hadd x)
  · rintro d q ⟨x, hx, rfl, rfl⟩
    by_cases hpx : p x = true
    · exact .inl ⟨x, List.mem_filter.mpr ⟨hx, hpx⟩, rfl, rfl⟩
    · obtain ⟨hid, hall⟩ := hp x hx (by simpa using hpx)
      exact .inr (hid ▸ howes x.property hall)
  · exact fun d q howes => absurd howes (hremove d q)

theorem Bridge.Consistent.devices (h : s.Consistent) (hold : s.tasks[n]? = some old)
    (hnew : new.Bystander) (hadd : ∀ x, ¬old.OwesAdd x) (hremove : ∀ d q, ¬old.OwesRemove d q)
    {devices : List DeviceCache} {issued : List String}
    (hneeded : ∀ x ∈ s.storage.notifications, (∃ device ∈ s.storage.devices, device.id = x.deviceId) →
      ∃ device ∈ devices, device.id = x.deviceId)
    (hfound : ∀ (m : Nat) task d properties, s.tasks[m]? = some task →
      task.subscribing = some (d, properties) → properties ≠ [] →
        (∃ device ∈ s.storage.devices, device.id = d) → ∃ device ∈ devices, device.id = d) :
    (Bridge.put { s with storage := { s.storage with devices := devices, issued := issued } } n
      new).Consistent := by
  have hsound : Storage.Sound { s.storage with devices := devices, issued := issued } :=
    ⟨h.sound.ids, h.sound.fresh, fun x hx => hneeded x hx (h.sound.devices x hx)⟩
  refine h.executed hold hsound (hnew.knows _) (Nat.le_refl _) ?_ ?_ ?_ hfound ?_ ?_ ?_ ?_ ?_
  · exact fun x hx => .inl hx
  · exact fun m task d properties _ _ x hx _ _ => hx
  · exact fun m task d q _ _ x hx _ _ => hx
  · intro d properties hs
    rw [hnew.subscribing] at hs
    cases hs
  · intro unsubscribed hu
    rw [hnew.unsubscribing] at hu
    cases hu
  · exact fun x _ howes => absurd howes (hadd x)
  · exact fun d q hhas => .inl hhas
  · exact fun d q howes => absurd howes (hremove d q)

theorem Bridge.Consistent.inserted {property : String} (h : s.Consistent)
    (hold : s.tasks[n]? = some
      (.waiting (.notificationPost deviceId properties (.create existing created property rest)) none)) :
    (Bridge.put
      { s with
        storage := { s.storage with
          notifications := s.storage.notifications ++ [⟨s.storage.nextNotification, deviceId, property⟩]
          nextNotification := s.storage.nextNotification + 1 } }
      n
      (.waiting (.notificationPost deviceId properties (.create existing created property rest))
        (some (.notification (some ⟨s.storage.nextNotification, deviceId, property⟩))))).Consistent := by
  have hsub : Subscribing s.storage deviceId properties existing created (property :: rest) :=
    h.knows n _ hold
  have hin : property ∈ properties := hsub.todo property List.mem_cons_self
  have hdevice := h.found n _ deviceId properties hold rfl (List.ne_nil_of_mem hin)
  have hlast : ∀ {y : DeviceNotification},
      y ∈ s.storage.notifications ++ [⟨s.storage.nextNotification, deviceId, property⟩] →
      y ∈ s.storage.notifications ∨ y = ⟨s.storage.nextNotification, deviceId, property⟩ := by
    intro y hy
    exact (List.mem_append.mp hy).imp_right List.mem_singleton.mp
  have hself := List.mem_append_right s.storage.notifications
    (List.mem_singleton_self (⟨s.storage.nextNotification, deviceId, property⟩ : DeviceNotification))
  have hsub' := @Subscribing.mono s.storage
    { s.storage with
      notifications := s.storage.notifications ++ [⟨s.storage.nextNotification, deviceId, property⟩]
      nextNotification := s.storage.nextNotification + 1 }
    _ _ _ _ _ hsub fun x hx _ _ => List.mem_append_left _ hx
  refine h.executed hold ⟨?_, ?_, ?_⟩ ⟨hsub'.met, ?_, ?_, ?_⟩ (Nat.le_succ _) ?_ ?_ ?_ ?_ ?_ ?_ ?_ ?_ ?_
  · intro x hx y hy hid
    rcases hlast hx with hx | rfl
    · rcases hlast hy with hy | rfl
      · exact h.sound.ids x hx y hy hid
      · exact absurd hid (Nat.ne_of_lt (h.sound.fresh x hx))
    · rcases hlast hy with hy | rfl
      · exact absurd hid.symm (Nat.ne_of_lt (h.sound.fresh y hy))
      · rfl
  · intro x hx
    rcases hlast hx with hx | rfl
    · exact Nat.lt_succ_of_lt (h.sound.fresh x hx)
    · exact Nat.lt_succ_self _
  · intro x hx
    rcases hlast hx with hx | rfl
    · exact h.sound.devices x hx
    · exact hdevice
  · intro x hx
    rcases List.mem_append.mp hx with hx | hx
    · exact hsub'.made x hx
    · obtain rfl := List.mem_singleton.mp hx
      exact ⟨rfl, hin, hself⟩
  · exact fun q hq => hsub.todo q (List.mem_cons_of_mem _ hq)
  · intro q hq
    rcases hsub.covered q hq with ⟨x, hx, hxq⟩ | hq
    · exact .inl ⟨x, List.mem_append_left _ hx, hxq⟩
    · rcases List.mem_cons.mp hq with rfl | hq
      · exact .inl ⟨_, List.mem_append_right _ (List.mem_singleton_self _), rfl⟩
      · exact .inr hq
  · intro x hx
    refine (hlast hx).imp_right ?_
    rintro rfl
    refine ⟨Nat.le_refl _, List.mem_append_right _ (List.mem_singleton_self _), fun hmem => ?_⟩
    exact Nat.lt_irrefl _ (h.sound.fresh _ ((hsub.met _ hmem).2 hin))
  · exact fun m task d qs _ _ x hx _ _ => List.mem_append_left _ hx
  · intro m task d q htask hu x hx hid hall
    rcases hlast hx with hx | rfl
    · exact hx
    · have hconflict : conflict (deviceId, properties) (d, q) = true :=
        conflict_eq_true.mpr ⟨hid, property, hin, hall⟩
      rw [h.apart n m _ task (deviceId, properties) (d, q) hold htask rfl hu] at hconflict
      cases hconflict
  · exact fun m task d qs _ _ _ hfound => hfound
  · rintro d qs ⟨⟩
    refine ⟨fun _ => hdevice, fun m task unsubscribed htask hu => ?_⟩
    exact h.apart n m _ task (deviceId, properties) unsubscribed hold htask rfl hu
  · rintro unsubscribed ⟨⟩
  · exact fun x _ howes => ⟨List.mem_append_left _ howes.1, howes.2⟩
  · rintro d q ⟨x, hx, hxq⟩
    exact .inl ⟨x, List.mem_append_left _ hx, hxq⟩
  · exact fun d q howes => howes.elim

theorem Bridge.Consistent.lookedUp {answer : Answer Value} (h : s.Consistent)
    (htask : s.tasks[n]? = some (.waiting handler none)) (hrequest : handler.request.unrelated = true) :
    (s.put n (.waiting handler (some answer))).Consistent := by
  have hbefore := bystander_unrelated hrequest none
  exact h.left htask rfl rfl rfl (bystander_unrelated hrequest _) hbefore.owesAdd
    fun d q howes => absurd howes (hbefore.owesRemove d q)

structure Executes (castId : String → Option String) (s : Bridge Value) (n : Nat) (id : String)
    (handler : Handler Value) (storage : Storage) (answer : Answer Value) : Prop where
  consistent : s.Consistent
  task : s.tasks[n]? = some (.waiting handler none)
  apart : s.Apart castId (.execute n id)
  carried : ∃ call, handler.call = some call ∧ s.storage.execute castId id call = some (storage, answer)

variable {id : String} {reply : Answer Value}

theorem Executes.devicePost {request : DeviceRequest} {stage : DevicePost}
    (h : Executes castId s n id (.devicePost request stage) storage reply) :
    (Bridge.put { s with storage := storage } n (.waiting (.devicePost request stage) (some reply))).Consistent := by
  obtain ⟨call, hcall, hexecute⟩ := h.carried
  cases stage with
  | discover => cases hcall
  | getByDeviceId d =>
    cases hcall
    cases hexecute
    exact h.consistent.lookedUp h.task rfl
  | create d =>
    cases hcall
    obtain ⟨-, hstored⟩ := Option.ite_none_left_eq_some.mp hexecute
    cases hstored
    refine h.consistent.devices h.task (bystander_unrelated rfl _) (fun _ => not_false) (fun _ _ => not_false) ?_ ?_
    · exact fun x _ ⟨device, hdevice, hid⟩ => ⟨device, List.mem_append_left _ hdevice, hid⟩
    · exact fun _ _ _ _ _ _ _ ⟨device, hdevice, hid⟩ => ⟨device, List.mem_append_left _ hdevice, hid⟩

theorem Executes.delete {storageId : String} {device : DeviceCache}
    (h : Executes castId s n id (.deviceDelete storageId (.delete device)) storage reply) :
    (Bridge.put { s with storage := storage } n
      (.waiting (.deviceDelete storageId (.delete device)) (some reply))).Consistent := by
  obtain ⟨call, hcall, hexecute⟩ := h.carried
  cases hcall
  have hdone : ∀ answer, (Task.waiting (.deviceDelete storageId (.delete device)) (some answer) :
      Task Value).Bystander :=
    fun _ => ⟨fun _ => trivial, rfl, rfl, fun _ => not_false, fun _ _ => not_false⟩
  simp only [Storage.execute] at hexecute
  split at hexecute
  case h_2 =>
    cases hexecute
    exact h.consistent.devices h.task (hdone _) (fun _ => not_false) (fun _ _ => not_false) (fun _ _ hd => hd)
      fun _ _ _ _ _ _ _ hd => hd
  case h_1 stored hcast =>
    cases hexecute
    obtain rfl := h.apart.spelled h.task rfl hcast
    have hkept : ∀ {d : String}, d ≠ stored → (∃ device ∈ s.storage.devices, device.id = d) →
        ∃ device ∈ s.storage.devices.filter (·.id ≠ stored), device.id = d := by
      rintro d hne ⟨device, hdevice, rfl⟩
      exact ⟨device, List.mem_filter.mpr ⟨hdevice, by simpa using hne⟩, rfl⟩
    have hgone : ∀ property, ¬s.storage.Has stored property := h.consistent.knows n _ h.task
    refine h.consistent.devices h.task (hdone _) (fun _ => not_false) (fun _ _ => not_false) ?_ ?_
    · exact fun x hx hdevice => hkept (fun hid => hgone x.property ⟨x, hx, hid, rfl⟩) hdevice
    · intro m task d properties htask hs hne hdevice
      refine hkept (fun hid => ?_) hdevice
      obtain ⟨q, hq⟩ := List.exists_mem_of_ne_nil properties hne
      have hconflict : conflict (d, properties) (stored, none) = true := conflict_eq_true.mpr ⟨hid, q, hq, rfl⟩
      rw [h.consistent.apart m n task _ (d, properties) (stored, none) htask h.task hs rfl] at hconflict
      cases hconflict

theorem Executes.deviceDelete {storageId : String} {stage : DeviceDelete}
    (h : Executes castId s n id (.deviceDelete storageId stage) storage reply) :
    (Bridge.put { s with storage := storage } n
      (.waiting (.deviceDelete storageId stage) (some reply))).Consistent := by
  obtain ⟨call, hcall, hexecute⟩ := h.carried
  cases stage with
  | getById =>
    cases hcall
    cases hexecute
    exact h.consistent.quiet h.task rfl rfl rfl trivial (by rintro _ ⟨⟩) (by rintro _ ⟨⟩)
      (fun _ howes => howes) fun _ _ howes => howes.elim
  | deleteNotifications device =>
    cases hcall
    cases hexecute
    refine h.consistent.deleted h.task ?_ ?_ rfl rfl (h.apart.unsubscribe h.task rfl) (fun _ => not_false)
      (fun _ _ => not_false) fun _ _ => rfl
    · exact fun x _ hx => ⟨by simpa using hx, rfl⟩
    · rintro q ⟨x, hx, hid, -⟩
      exact absurd hid (by simpa using List.of_mem_filter hx)
  | delete device => exact h.delete

theorem Executes.getById (h : Executes castId s n id (.notificationPost deviceId properties .getById) storage reply) :
    (Bridge.put { s with storage := storage } n
      (.waiting (.notificationPost deviceId properties .getById) (some reply))).Consistent := by
  obtain ⟨call, hcall, hexecute⟩ := h.carried
  cases hcall
  cases hexecute
  refine h.consistent.executed h.task h.consistent.sound trivial (Nat.le_refl _) (fun x hx => .inl hx)
    (fun _ _ _ _ _ _ x hx _ _ => hx) (fun _ _ _ _ _ _ x hx _ _ => hx) (fun _ _ _ _ _ _ _ hd => hd) ?_
    (by rintro _ ⟨⟩) (fun _ _ howes => howes.elim) (fun _ _ hhas => .inl hhas) (fun _ _ howes => howes.elim)
  intro d qs hs
  cases hfound : (castId deviceId).bind fun id => s.storage.devices.find? (·.id = id) with
  | none =>
    rw [hfound] at hs
    cases hs
  | some device =>
    rw [hfound] at hs
    cases hs
    obtain ⟨stored, hcast, hfind⟩ := Option.bind_eq_some_iff.mp hfound
    obtain rfl := h.apart.spelled h.task rfl hcast
    refine ⟨fun _ => ⟨device, List.mem_of_find?_eq_some hfind, ?_⟩, h.apart.subscribe h.task rfl⟩
    simpa using List.find?_some hfind

theorem Executes.notificationPost {stage : NotificationPost}
    (h : Executes castId s n id (.notificationPost deviceId properties stage) storage reply) :
    (Bridge.put { s with storage := storage } n
      (.waiting (.notificationPost deviceId properties stage) (some reply))).Consistent := by
  obtain ⟨call, hcall, hexecute⟩ := h.carried
  cases stage with
  | getById => exact h.getById
  | map device => cases hcall
  | getAllByDeviceId =>
    cases hcall
    cases hexecute
    refine h.consistent.quiet h.task rfl rfl rfl ⟨?_, ?_, ?_, ?_⟩ (fun _ hs => hs) (by rintro _ ⟨⟩)
      (fun _ howes => howes.elim) fun _ _ howes => howes.elim
    · intro x hx
      obtain ⟨hmem, hid⟩ := List.mem_filter.mp hx
      exact ⟨by simpa using hid, fun _ => hmem⟩
    · rintro x ⟨⟩
    · exact fun q hq => (mem_foldl_addProperty.mp hq).resolve_left List.not_mem_nil
    · exact fun q hq => .inr (mem_foldl_addProperty.mpr (.inr hq))
  | create existing created property rest =>
    cases hcall
    cases hexecute
    exact h.consistent.inserted h.task

theorem Executes.notificationDelete {notificationId : Nat} {stage : NotificationDelete}
    (h : Executes castId s n id (.notificationDelete deviceId notificationId stage) storage reply) :
    (Bridge.put { s with storage := storage } n
      (.waiting (.notificationDelete deviceId notificationId stage) (some reply))).Consistent := by
  obtain ⟨call, hcall, hexecute⟩ := h.carried
  have hknows := h.consistent.knows n _ h.task
  cases stage with
  | getById =>
    cases hcall
    cases hexecute
    refine h.consistent.quiet h.task rfl rfl rfl ?_ (by rintro _ ⟨⟩) (by rintro _ ⟨⟩)
      (fun _ howes => howes) fun _ _ howes => howes.elim
    cases hfind : s.storage.notifications.find? (·.id = notificationId) with
    | none => trivial
    | some x =>
      have hmem := List.mem_of_find?_eq_some hfind
      exact ⟨by simpa using List.find?_some hfind, h.consistent.sound.fresh x hmem,
        fun y hy hid => h.consistent.sound.ids y hy x hmem hid⟩
  | deleteById x =>
    cases hcall
    cases hexecute
    obtain ⟨hdevice, hid, hlt, hall⟩ := hknows
    refine h.consistent.deleted h.task ?_ trivial rfl rfl (h.apart.unsubscribe h.task rfl) (fun _ => not_false)
      (fun _ _ => not_false) fun q hq => ⟨rfl, (by simpa using hq : x.property = q).symm⟩
    intro y hy hpy
    obtain rfl := hall y hy (by simpa [hid] using hpy)
    exact ⟨hdevice, by simp⟩
  | getAllByDeviceId x =>
    cases hcall
    cases hexecute
    have hremaining : (∀ y ∈ s.storage.notifications.filter (·.deviceId = deviceId),
        y.property ≠ x.property) → ¬s.storage.Has deviceId x.property := by
      rintro hall ⟨y, hy, hid, hproperty⟩
      exact hall y (List.mem_filter.mpr ⟨hy, by simpa using hid⟩) hproperty
    refine h.consistent.quiet h.task rfl rfl rfl hremaining (by rintro _ ⟨⟩) (fun _ hu => hu)
      (fun _ howes => howes) ?_
    rintro d q ⟨rfl, rfl⟩
    by_cases hhas : s.storage.Has d x.property
    · exact .inl hhas
    · refine .inr ⟨rfl, rfl, fun y hy hproperty => hhas ⟨y, List.mem_of_mem_filter hy, ?_, hproperty⟩⟩
      simpa using List.of_mem_filter hy

theorem Executes.notificationDeleteAll
    (h : Executes castId s n id (.notificationDeleteAll deviceId) storage reply) :
    (Bridge.put { s with storage := storage } n
      (.waiting (.notificationDeleteAll deviceId) (some reply))).Consistent := by
  obtain ⟨call, hcall, hexecute⟩ := h.carried
  cases hcall
  cases hexecute
  refine h.consistent.deleted h.task ?_ ?_ rfl rfl (h.apart.unsubscribe h.task rfl) (fun _ => not_false)
    (fun _ _ => not_false) fun _ _ => rfl
  · exact fun x _ hx => ⟨by simpa using hx, rfl⟩
  · rintro q ⟨x, hx, hid, -⟩
    exact absurd hid (by simpa using List.of_mem_filter hx)

theorem consistent_execute (h : Executes castId s n id handler storage reply) :
    (Bridge.put { s with storage := storage } n (.waiting handler (some reply))).Consistent := by
  cases handler with
  | devicePost request stage => exact h.devicePost
  | deviceDelete storageId stage => exact h.deviceDelete
  | notificationPost deviceId properties stage => exact h.notificationPost
  | notificationDelete deviceId notificationId stage => exact h.notificationDelete
  | notificationDeleteAll deviceId => exact h.notificationDeleteAll
  | execute request stage =>
    obtain ⟨call, hcall, hexecute⟩ := h.carried
    cases stage with
    | get =>
      cases hcall
      cases hexecute
      exact h.consistent.lookedUp h.task rfl
    | map device => cases hcall
  | executeRaw deviceId invalid =>
    obtain ⟨call, hcall, hexecute⟩ := h.carried
    cases hcall
    cases hexecute
    exact h.consistent.lookedUp h.task rfl
  | getProperties storageId keys stage =>
    obtain ⟨call, hcall, hexecute⟩ := h.carried
    cases stage with
    | get =>
      cases hcall
      cases hexecute
      exact h.consistent.lookedUp h.task rfl
    | map device => cases hcall

theorem consistent_answer {answer : Answer Value} (h : s.Consistent)
    (htask : s.tasks[n]? = some (.waiting handler none)) (hcall : handler.call = none) :
    (s.put n (.waiting handler (some answer))).Consistent := by
  by_cases hrequest : handler.request.unrelated = true
  · have hbefore := bystander_unrelated hrequest none
    exact h.left htask rfl rfl rfl (bystander_unrelated hrequest _) hbefore.owesAdd
      fun d q howes => absurd howes (hbefore.owesRemove d q)
  unfold Handler.call at hcall
  split at hcall
  case h_8 =>
    exact h.quiet htask rfl rfl rfl trivial (fun _ hs => hs) (by rintro _ ⟨⟩)
      (fun _ howes => howes) fun _ _ howes => howes.elim
  all_goals first | exact absurd rfl hrequest | cases hcall

theorem consistent_fail {error : String} (h : s.Consistent)
    (htask : s.tasks[n]? = some (.waiting handler answer)) (hapart : s.Apart castId (.fail n error)) :
    (s.put n (.settled (some error))).Consistent := by
  have hdone : handler.unfinished answer = false := by
    have hall := hapart
    rw [Bridge.Apart, htask] at hall
    exact hall
  refine h.left htask rfl rfl rfl (bystander_settled _) ?_ ?_
  · intro x howes
    simp only [Task.OwesAdd] at howes
    unfold Handler.OwesAdd at howes
    split at howes
    · have hany := List.any_eq_false.mp hdone x howes.1
      exact hany (decide_eq_true howes.2)
    · cases hdone
    · exact howes
  · intro d q howes
    simp only [Task.OwesRemove] at howes
    unfold Handler.OwesRemove at howes
    split at howes
    case h_6 => exact howes.elim
    all_goals cases hdone

theorem consistent_step {e : Event Value} (h : s.Consistent) (hapart : s.Apart castId e)
    (hstep : s.step castId e = some t) : t.Consistent := by
  cases step_cases hstep with
  | start request => exact consistent_start h request
  | execute htask hcall hexecute => exact consistent_execute ⟨h, htask, hapart, _, hcall, hexecute⟩
  | answer htask hcall => exact consistent_answer h htask hcall
  | resume htask hresume => exact consistent_resume h htask hresume
  | fail htask => exact consistent_fail h htask hapart

theorem poller_load {notifications : List DeviceNotification} {p : Poller Value} (h : p.OnePerDevice) :
    let loaded := notifications.foldl (fun p n => p.addSubscriptions n.deviceId [n.property]) p
    loaded.OnePerDevice ∧
      ∀ deviceId property, loaded.isSubscribed deviceId property = true ↔
        p.isSubscribed deviceId property = true ∨
          ∃ x ∈ notifications, x.deviceId = deviceId ∧ x.property = property := by
  induction notifications generalizing p with
  | nil => exact ⟨h, fun deviceId property => by simp⟩
  | cons x xs ih =>
    obtain ⟨hone, hcached⟩ := ih (OnePerDevice.addSubscriptions h x.deviceId [x.property])
    refine ⟨hone, fun deviceId property => ?_⟩
    rw [List.foldl_cons, hcached, isSubscribed_addSubscriptions h, List.mem_singleton,
      @eq_comm _ deviceId, @eq_comm _ property, or_assoc]
    simp only [List.mem_cons, or_and_right, exists_or, exists_eq_left]

theorem consistent_load (h : storage.Sound) : (Bridge.load storage : Bridge Value).Consistent := by
  obtain ⟨hone, hcached⟩ := @poller_load Value storage.notifications {} List.nodup_nil
  refine ⟨hone, h, ?_, ?_, ?_, ?_, ?_⟩
  · rintro n task ⟨⟩
  · rintro n task deviceId properties ⟨⟩
  · rintro n m task task' subscribed unsubscribed ⟨⟩
  · exact fun x hx => .inl ((hcached _ _).mpr (.inr ⟨x, hx, rfl, rfl⟩))
  · intro deviceId property hsubscribed
    rcases (hcached _ _).mp hsubscribed with hempty | hhas
    · cases hempty
    · exact .inl hhas

theorem Bridge.Consistent.mirrors (h : s.Consistent) : s.Mirrors := by
  intro hidle
  have hsettled : ∀ {m : Nat} {task : Task Value}, s.tasks[m]? = some task →
      ∃ error, task = .settled error := fun htask => hidle _ (List.mem_of_getElem? htask)
  refine ⟨fun deviceId property => ⟨fun hcached => ?_, ?_⟩, h.sound.devices⟩
  · rcases h.cached deviceId property hcached with hhas | ⟨m, task, htask, howes⟩
    · exact hhas
    · obtain ⟨error, rfl⟩ := hsettled htask
      exact howes.elim
  · rintro ⟨x, hx, rfl, rfl⟩
    rcases h.stored x hx with hcached | ⟨m, task, htask, howes⟩
    · exact hcached
    · obtain ⟨error, rfl⟩ := hsettled htask
      exact howes.elim

theorem subscriptions_mirror_stored {events : List (Event Value)} (hstart : storage.Sound)
    (hapart : Along (Bridge.step castId) (Bridge.Apart castId) (Bridge.load storage) events)
    (h : run (Bridge.step castId) (Bridge.load storage) events = some s) : s.Mirrors := by
  have hstep : ∀ (s : Bridge Value) e t, s.Consistent → s.Apart castId e → s.step castId e = some t → t.Consistent :=
    fun _ _ _ => consistent_step
  exact ((always_of_along hstep (consistent_load hstart) hapart).last h).mirrors

instance (task : Task Value) : Decidable (∃ error, task = .settled error) :=
  match task with
  | .waiting _ _ => .isFalse (by rintro ⟨error, ⟨⟩⟩)
  | .settled error => .isTrue ⟨error, rfl⟩

instance (s : Bridge Value) : Decidable s.Idle :=
  inferInstanceAs (Decidable (∀ task ∈ s.tasks, ∃ error, task = .settled error))

def readableSpec : SimplifiedMiotSpec Nat := ⟨fun _ => some ⟨2, 1, [.read], fun _ => none⟩, fun _ => none⟩

def vacuumStorage : Storage := { devices := [⟨vacuumId, 7, "10.0.0.1", "t1"⟩], issued := [vacuumId] }

theorem sound_vacuumStorage : vacuumStorage.Sound where
  ids _ hx := absurd hx List.not_mem_nil
  fresh _ hx := absurd hx List.not_mem_nil
  devices _ hx := absurd hx List.not_mem_nil

def subscribeEvents : List (Event Nat) :=
  [.start (.notificationPost vacuumId ["vacuum:mode", "vacuum:fan"]), .execute 0 "", .resume 0,
    .answer 0 (.spec readableSpec), .resume 0, .execute 0 "", .resume 0, .execute 0 "", .resume 0]

def unsubscribedEvents : List (Event Nat) :=
  subscribeEvents ++
    [.execute 0 "", .resume 0, .start (.notificationDelete vacuumId 0), .execute 1 "", .resume 1, .execute 1 "",
      .resume 1, .execute 1 "", .resume 1]

theorem subscriptions_mirror_stored_unsubscribed :
    ∃ s : Bridge Nat, s.Idle ∧ s.storage.notifications = [⟨1, vacuumId, "vacuum:fan"⟩] ∧ s.Mirrors := by
  have hapart : Along (Bridge.step castObjectId) (Bridge.Apart castObjectId) (Bridge.load vacuumStorage)
      unsubscribedEvents := by
    decide +kernel
  have hend : (run (Bridge.step castObjectId) (Bridge.load vacuumStorage) unsubscribedEvents).map
      (fun s => (decide s.Idle, s.storage.notifications)) = some (true, [⟨1, vacuumId, "vacuum:fan"⟩]) := by
    decide +kernel
  obtain ⟨s, hs, hmap⟩ := Option.map_eq_some_iff.mp hend
  obtain ⟨hidle, hnotifications⟩ := Prod.mk.inj hmap
  exact ⟨s, of_decide_eq_true hidle, hnotifications,
    subscriptions_mirror_stored sound_vacuumStorage hapart hs⟩

/-- The second of two creates fails: the first notification stays stored and is not polled. -/
theorem halfway_not_cached :
    ∃ s : Bridge Nat, run (Bridge.step castObjectId) (Bridge.load vacuumStorage)
        (subscribeEvents ++ [.fail 0 "connection lost"]) = some s ∧ ¬s.Mirrors := by
  have hend : (run (Bridge.step castObjectId) (Bridge.load vacuumStorage)
        (subscribeEvents ++ [.fail 0 "connection lost"])).map
      (fun s => (decide s.Idle, s.storage.notifications, s.poller.isSubscribed vacuumId "vacuum:mode")) =
        some (true, [⟨0, vacuumId, "vacuum:mode"⟩], false) := by
    decide +kernel
  obtain ⟨s, hs, hmap⟩ := Option.map_eq_some_iff.mp hend
  obtain ⟨hidle, hmap⟩ := Prod.mk.inj hmap
  obtain ⟨hnotifications, hcached⟩ := Prod.mk.inj hmap
  refine ⟨s, hs, fun hmirrors => ?_⟩
  have hsubscribed := ((hmirrors (of_decide_eq_true hidle)).1 vacuumId "vacuum:mode").mpr
    ⟨⟨0, vacuumId, "vacuum:mode"⟩, by rw [hnotifications]; exact List.mem_singleton_self _, rfl, rfl⟩
  rw [hcached] at hsubscribed
  cases hsubscribed

end HomelabApps.MiotBridge.Handlers
