import HomelabApps.Library.Table
import HomelabApps.MiotBridge.Handlers

universe u

namespace HomelabApps.MiotBridge.Handlers

open HomelabApps.Library
open HomelabApps.Library.Transition

variable {Value : Type u}

def Lookup.held : Lookup → Option (Answer Value) → Option DeviceCache
  | .get, some (.device device) => device
  | .get, _ => none
  | .map device, _ => some device

def Handler.held : Handler Value → Option (Answer Value) → Option DeviceCache
  | .execute _ stage, answer => stage.held answer
  | .executeRaw _ _, answer => Lookup.get.held answer
  | .getProperties _ _ stage, answer => stage.held answer
  | _, _ => none

def Task.held : Task Value → Option DeviceCache
  | .waiting handler answer => handler.held answer
  | .settled _ => none

def Task.storing : Task Value → Option Nat
  | .waiting (.devicePost _ (.create deviceId)) none => some deviceId
  | _ => none

/-- A record is stored when nothing of its hardware device is left: no other record, no client
and no command or poll that looked one up. -/
def Bridge.Fresh (s : Bridge Value) : Event Value → Prop
  | .execute n _ =>
    (s.tasks[n]?.bind Task.storing).all (fun deviceId =>
      s.storage.devices.all (·.deviceId ≠ deviceId) && (s.registry deviceId).isNone &&
        s.tasks.all fun task => task.held.all (·.deviceId ≠ deviceId)) = true
  | _ => True

instance (s : Bridge Value) (e : Event Value) : Decidable (s.Fresh e) :=
  match e with
  | .execute _ _ => inferInstanceAs (Decidable (_ = true))
  | .start _ => .isTrue trivial
  | .answer _ _ => .isTrue trivial
  | .resume _ => .isTrue trivial
  | .fail _ _ => .isTrue trivial

def Bridge.Known (s : Bridge Value) (device : DeviceCache) : Prop :=
  device ∈ s.storage.devices ∨ ∃ n : Nat, s.tasks[n]?.bind Task.held = some device

structure Bridge.Matched (s : Bridge Value) : Prop where
  one : ∀ device device', s.Known device → s.Known device' → device.deviceId = device'.deviceId →
    device = device'
  client : ∀ device client, s.Known device → s.registry device.deviceId = some client →
    client = .new device
  sent : ∀ sent ∈ s.sent, sent.client = .new sent.device

variable {s t : Bridge Value} {n : Nat} {device : DeviceCache} {task : Task Value}
  {handler : Handler Value} {answer : Answer Value} {effect : Effect} {castId : String → Option String}

theorem Bridge.Matched.shrink (h : s.Matched) (hknown : ∀ device, t.Known device → s.Known device)
    (hregistry : ∀ deviceId client, t.registry deviceId = some client → s.registry deviceId = some client)
    (hsent : t.sent = s.sent) : t.Matched where
  one device device' hd hd' := h.one device device' (hknown device hd) (hknown device' hd')
  client device client hd hclient := h.client device client (hknown device hd) (hregistry _ _ hclient)
  sent := hsent ▸ h.sent

theorem known_put (h : (s.put n task).Known device) :
    s.Known device ∨ task.held = some device := by
  rcases h with h | ⟨m, hm⟩
  · exact .inl (.inl h)
  · obtain ⟨task', htask', hheld⟩ := Option.bind_eq_some_iff.mp hm
    rcases task_put htask' with ⟨-, rfl⟩ | ⟨-, hm⟩
    · exact .inr hheld
    · exact .inl (.inr ⟨m, Option.bind_eq_some_iff.mpr ⟨task', hm, hheld⟩⟩)

theorem known_held (htask : s.tasks[n]? = some task) (hheld : task.held = some device) :
    s.Known device :=
  .inr ⟨n, Option.bind_eq_some_iff.mpr ⟨task, htask, hheld⟩⟩

theorem held_handler (request : Request Value) : request.handler.held none = none := by
  cases request <;> rfl

theorem held_answer (hcall : handler.call = none) :
    handler.held (some answer) = handler.held none := by
  cases handler with
  | execute request stage =>
    cases stage with
    | get => cases hcall
    | map device => rfl
  | executeRaw deviceId invalid => cases hcall
  | getProperties storageId keys stage =>
    cases stage with
    | get => cases hcall
    | map device => rfl
  | _ => rfl

theorem held_execute {storage storage' : Storage} {id : String} {call : Call}
    (hcall : handler.call = some call) (hexecute : storage.execute castId id call = some (storage', answer))
    (h : handler.held (some answer) = some device) : device ∈ storage.devices := by
  cases handler with
  | execute request stage =>
    cases stage with
    | get =>
      cases hcall
      cases hexecute
      exact List.mem_of_find?_eq_some h
    | map device => cases hcall
  | executeRaw deviceId invalid =>
    cases hcall
    cases hexecute
    exact List.mem_of_find?_eq_some h
  | getProperties storageId keys stage =>
    cases stage with
    | get =>
      cases hcall
      cases hexecute
      obtain ⟨id, -, hfind⟩ := Option.bind_eq_some_iff.mp h
      exact List.mem_of_find?_eq_some hfind
    | map device => cases hcall
  | _ => cases h

theorem held_resume (h : handler.resume answer = some (effect, task)) (hheld : task.held = some device) :
    handler.held (some answer) = some device := by
  cases task with
  | settled error => cases hheld
  | waiting next a =>
    obtain ⟨hrequest, rfl⟩ := serves_resume h
    cases handler with
    | execute request stage =>
      simp only [Handler.resume] at h
      unfold resumeExecute at h
      split at h
      · cases h
      · cases h
        exact hheld
      · split at h <;> cases h
      · cases h
    | executeRaw deviceId invalid =>
      simp only [Handler.resume] at h
      unfold resumeExecuteRaw at h
      split at h
      · cases h
      · split at h <;> cases h
      · cases h
    | getProperties storageId keys stage =>
      simp only [Handler.resume] at h
      unfold resumeGetProperties at h
      split at h <;> cases h
      exact hheld
    | _ => cases next <;> first | cases hheld | cases hrequest

theorem send_resume (h : handler.resume answer = some (.send device, task)) :
    handler.held (some answer) = some device := by
  cases handler with
  | devicePost request stage =>
    simp only [Handler.resume] at h
    unfold DevicePost.resume at h
    split at h <;> cases h
  | deviceDelete id stage =>
    simp only [Handler.resume] at h
    unfold DeviceDelete.resume at h
    split at h <;> cases h
  | notificationPost id properties stage =>
    have hsubscribe : ∀ {existing created rest},
        subscribeFrom id properties existing created rest ≠ (.send device, task) := by
      intro existing created rest hsend
      rcases @effect_subscribeFrom Value id properties existing created rest with heff | heff <;>
        rw [hsend] at heff <;> cases heff
    simp only [Handler.resume] at h
    unfold NotificationPost.resume at h
    split at h
    · cases h
    · cases h
    · split at h <;> cases h
    · exact absurd (Option.some.inj h) hsubscribe
    · exact absurd (Option.some.inj h) hsubscribe
    · cases h
  | notificationDelete deviceId id stage =>
    simp only [Handler.resume] at h
    unfold NotificationDelete.resume at h
    split at h
    · cases h
    · split at h <;> cases h
    · cases h
    · have heff := congrArg Prod.fst (Option.some.inj h)
      dsimp only at heff
      split at heff <;> cases heff
    · cases h
  | notificationDeleteAll deviceId =>
    cases answer <;> cases h
  | execute request stage =>
    simp only [Handler.resume] at h
    unfold resumeExecute at h
    split at h
    · cases h
    · cases h
    · split at h <;> cases h
      rfl
    · cases h
  | executeRaw deviceId invalid =>
    simp only [Handler.resume] at h
    unfold resumeExecuteRaw at h
    split at h
    · cases h
    · split at h <;> cases h
      rfl
    · cases h
  | getProperties storageId keys stage =>
    simp only [Handler.resume] at h
    unfold resumeGetProperties at h
    split at h
    · cases h
    · cases h
    · have heff := congrArg Prod.fst (Option.some.inj h)
      dsimp only at heff
      split at heff <;> cases heff
      rfl
    · cases h

theorem matched_send (h : s.Matched) (hknown : s.Known device) : (s.apply (.send device)).Matched := by
  have hclient : s.client device = .new device := by
    cases hregistry : s.registry device.deviceId with
    | none => rw [Bridge.client, hregistry, Option.getD_none]
    | some client =>
      rw [Bridge.client, hregistry, Option.getD_some]
      exact h.client device client hknown hregistry
  refine ⟨fun d d' hd hd' => h.one d d' hd hd', fun d client hd hregistered => ?_, fun x hx => ?_⟩
  · dsimp only [Bridge.apply] at hregistered
    by_cases hid : d.deviceId = device.deviceId
    · obtain rfl := h.one d device hd hknown hid
      rw [Function.update_self, hclient] at hregistered
      exact (Option.some.inj hregistered).symm
    · rw [Function.update_of_ne hid] at hregistered
      exact h.client d client hd hregistered
  · rcases List.mem_append.mp hx with hx | hx
    · exact h.sent x hx
    · rw [List.mem_singleton.mp hx]
      exact hclient

theorem matched_apply (h : s.Matched) (hsend : ∀ device, effect = .send device → s.Known device) :
    (s.apply effect).Matched := by
  cases effect with
  | send device => exact matched_send h (hsend device rfl)
  | removeInstance deviceId =>
    refine h.shrink (fun _ hd => hd) (fun d client hclient => ?_) rfl
    by_cases hid : d = deviceId
    · subst hid
      simp [Bridge.apply] at hclient
    · simpa [Bridge.apply, hid] using hclient
  | _ => exact h.shrink (fun _ hd => hd) (fun _ _ hclient => hclient) rfl

theorem matched_create {storage : Storage} (h : s.Matched)
    (hstored : storage.devices = s.storage.devices ++ [device])
    (hregistry : s.registry device.deviceId = none)
    (hnew : ∀ device', s.Known device' → device'.deviceId ≠ device.deviceId)
    (hheld : task.held = none) :
    (Bridge.put { s with storage := storage } n task).Matched := by
  have hknown : ∀ device', (Bridge.put { s with storage := storage } n task).Known device' →
      s.Known device' ∨ device' = device := by
    intro device' hd
    rcases known_put hd with (hmem | hd) | hd
    · dsimp only at hmem
      rw [hstored] at hmem
      rcases List.mem_append.mp hmem with hmem | hmem
      · exact .inl (.inl hmem)
      · exact .inr (List.mem_singleton.mp hmem)
    · exact .inl (.inr hd)
    · rw [hheld] at hd
      cases hd
  refine ⟨fun d d' hd hd' hid => ?_, fun d client hd hclient => ?_, h.sent⟩
  · rcases hknown d hd with hold | rfl
    · rcases hknown d' hd' with hold' | rfl
      · exact h.one d d' hold hold' hid
      · exact absurd hid (hnew d hold)
    · rcases hknown d' hd' with hold' | rfl
      · exact absurd hid.symm (hnew d' hold')
      · rfl
  · rcases hknown d hd with hold | rfl
    · exact h.client d client hold hclient
    · dsimp only [Bridge.put] at hclient
      rw [hregistry] at hclient
      cases hclient

theorem Bridge.Fresh.of_storing {id : String} {request : DeviceRequest} {deviceId : Nat}
    (h : s.Fresh (.execute n id))
    (htask : s.tasks[n]? = some (.waiting (.devicePost request (.create deviceId)) none)) :
    s.registry deviceId = none ∧ ∀ device, s.Known device → device.deviceId ≠ deviceId := by
  simp only [Bridge.Fresh, htask, Option.bind_some, Task.storing, Option.all_some, Bool.and_eq_true,
    List.all_eq_true, Option.isNone_iff_eq_none, decide_eq_true_eq] at h
  obtain ⟨⟨hdevices, hregistry⟩, htasks⟩ := h
  refine ⟨hregistry, fun device hknown => ?_⟩
  rcases hknown with hmem | ⟨m, hm⟩
  · exact hdevices device hmem
  · obtain ⟨task, htask', hheld⟩ := Option.bind_eq_some_iff.mp hm
    have hall := htasks task (List.mem_of_getElem? htask')
    rw [hheld] at hall
    exact of_decide_eq_true hall

theorem matched_step (s : Bridge Value) (e : Event Value) (t : Bridge Value) (h : s.Matched)
    (hfresh : s.Fresh e) (hstep : s.step castId e = some t) : t.Matched := by
  cases step_cases hstep with
  | start request =>
    refine h.shrink (fun device hd => ?_) (fun _ _ hclient => hclient) rfl
    rcases hd with hmem | ⟨m, hm⟩
    · exact .inl hmem
    · obtain ⟨task, htask, hheld⟩ := Option.bind_eq_some_iff.mp hm
      rcases getElem?_concat_cases htask with htask | ⟨-, rfl⟩
      · exact known_held htask hheld
      · rw [Task.held, held_handler] at hheld
        cases hheld
  | @execute n id handler call storage answer htask hcall hexecute =>
    by_cases hcreate : ∃ d address token, call = .createDevice d address token
    · obtain ⟨d, address, token, rfl⟩ := hcreate
      obtain ⟨request, rfl, -, -⟩ := create_call hcall
      obtain ⟨hregistry, hnew⟩ := hfresh.of_storing htask
      obtain ⟨-, hstored⟩ := Option.ite_none_left_eq_some.mp hexecute
      cases hstored
      exact @matched_create _ _ _ ⟨id, d, address, token⟩ _ _ h rfl hregistry hnew rfl
    · have hdevices : storage.devices.Sublist s.storage.devices :=
        devices_execute hexecute fun d address token heq => hcreate ⟨d, address, token, heq⟩
      refine h.shrink (fun device hd => ?_) (fun _ _ hclient => hclient) rfl
      rcases known_put hd with (hmem | hd) | hd
      · exact .inl (hdevices.subset hmem)
      · exact .inr hd
      · exact .inl (held_execute hcall hexecute hd)
  | answer htask hcall =>
    refine h.shrink (fun device hd => ?_) (fun _ _ hclient => hclient) rfl
    rcases known_put hd with hd | hd
    · exact hd
    · exact known_held htask ((held_answer hcall).symm.trans hd)
  | @resume n handler answer effect task htask hresume =>
    have happly : (s.apply effect).Matched := by
      refine matched_apply h fun device heffect => known_held htask ?_
      rw [heffect] at hresume
      exact send_resume hresume
    have htask' : (s.apply effect).tasks[n]? = some (.waiting handler (some answer)) := by
      rw [tasks_apply, htask]
    rw [apply_put]
    refine happly.shrink (fun device hd => ?_) (fun _ _ hclient => hclient) rfl
    rcases known_put hd with hd | hd
    · exact hd
    · exact known_held htask' (held_resume hresume hd)
  | fail htask =>
    refine h.shrink (fun device hd => ?_) (fun _ _ hclient => hclient) rfl
    rcases known_put hd with hd | hd
    · exact hd
    · cases hd

theorem sent_through_own_client {storage : Storage} {events : List (Event Value)}
    (hstart : (storage.devices.map (·.deviceId)).Nodup)
    (hfresh : Along (Bridge.step castId) Bridge.Fresh (Bridge.load storage) events)
    (h : run (Bridge.step castId) (Bridge.load storage) events = some s) :
    ∀ sent ∈ s.sent, sent.client.address = sent.device.address ∧
      sent.client.token = sent.device.token ∧ sent.client.registration = sent.device.id := by
  have hload : (Bridge.load storage : Bridge Value).Matched := by
    have hstored : ∀ device, (Bridge.load storage : Bridge Value).Known device →
        device ∈ storage.devices := by
      rintro device (hmem | ⟨n, hn⟩)
      · exact hmem
      · cases hn
    refine ⟨fun d d' hd hd' hid => Table.eq_of_key hstart (hstored d hd) (hstored d' hd') hid, ?_, ?_⟩
    · rintro d client - ⟨⟩
    · rintro sent ⟨⟩
  intro sent hsent
  rw [((always_of_along matched_step hload hfresh).last h).sent sent hsent]
  exact ⟨rfl, rfl, rfl⟩

def movedEvents : List (Event Nat) :=
  [.start (.executeRaw 7 none), .execute 0 "", .resume 0,
    .start (.deviceDelete vacuumId), .execute 1 "", .resume 1, .execute 1 "", .resume 1, .execute 1 "", .resume 1,
    .start (.devicePost ⟨"10.0.0.2", "t2"⟩), .answer 2 (.discovered 7), .resume 2, .execute 2 "", .resume 2,
    .execute 2 successorId, .resume 2, .start (.executeRaw 7 none), .execute 3 "", .resume 3]

def oldStorage : Storage := { devices := [⟨vacuumId, 7, "10.0.0.1", "t1"⟩], issued := [vacuumId] }

theorem sent_through_own_client_moved :
    ∃ s : Bridge Nat,
      s.sent =
        [⟨⟨vacuumId, 7, "10.0.0.1", "t1"⟩, ⟨7, "10.0.0.1", "t1", vacuumId⟩⟩,
          ⟨⟨successorId, 7, "10.0.0.2", "t2"⟩, ⟨7, "10.0.0.2", "t2", successorId⟩⟩] ∧
      ∀ sent ∈ s.sent, sent.client.address = sent.device.address ∧
        sent.client.token = sent.device.token ∧ sent.client.registration = sent.device.id := by
  have hfresh : Along (Bridge.step castObjectId) Bridge.Fresh (Bridge.load oldStorage) movedEvents := by decide +kernel
  have hsent : (run (Bridge.step castObjectId) (Bridge.load oldStorage) movedEvents).map (·.sent) =
      some
        [⟨⟨vacuumId, 7, "10.0.0.1", "t1"⟩, ⟨7, "10.0.0.1", "t1", vacuumId⟩⟩,
          ⟨⟨successorId, 7, "10.0.0.2", "t2"⟩, ⟨7, "10.0.0.2", "t2", successorId⟩⟩] := by
    decide +kernel
  have hone : (oldStorage.devices.map (·.deviceId)).Nodup := by decide
  obtain ⟨s, hs, hmap⟩ := Option.map_eq_some_iff.mp hsent
  exact ⟨s, hmap, sent_through_own_client hone hfresh hs⟩

def lateCommandEvents : List (Event Nat) :=
  [.start (.executeRaw 7 none), .execute 0 "",
    .start (.deviceDelete vacuumId), .execute 1 "", .resume 1, .execute 1 "", .resume 1, .execute 1 "", .resume 1,
    .resume 0,
    .start (.devicePost ⟨"10.0.0.2", "t2"⟩), .answer 2 (.discovered 7), .resume 2, .execute 2 "", .resume 2,
    .execute 2 successorId, .resume 2, .start (.executeRaw 7 none), .execute 3 "", .resume 3]

theorem sent_through_deleted_client :
    ∃ s : Bridge Nat, run (Bridge.step castObjectId) (Bridge.load oldStorage) lateCommandEvents = some s ∧
      ¬∀ sent ∈ s.sent, sent.client.address = sent.device.address ∧
        sent.client.token = sent.device.token ∧ sent.client.registration = sent.device.id := by
  have hsent : (run (Bridge.step castObjectId) (Bridge.load oldStorage) lateCommandEvents).map (·.sent) =
      some
        [⟨⟨vacuumId, 7, "10.0.0.1", "t1"⟩, ⟨7, "10.0.0.1", "t1", vacuumId⟩⟩,
          ⟨⟨successorId, 7, "10.0.0.2", "t2"⟩, ⟨7, "10.0.0.1", "t1", vacuumId⟩⟩] := by
    decide +kernel
  obtain ⟨s, hs, hmap⟩ := Option.map_eq_some_iff.mp hsent
  refine ⟨s, hs, fun h => ?_⟩
  rw [hmap] at h
  exact absurd h (by decide)

end HomelabApps.MiotBridge.Handlers
