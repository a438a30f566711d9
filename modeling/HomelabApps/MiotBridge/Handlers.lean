import HomelabApps.Library.Lists
import HomelabApps.Library.Transition
import HomelabApps.MiotBridge.PropertyPoller.Subscriptions

/-! The request handlers of the bridge, interleaved at their awaits: devices registered and
deleted, properties subscribed and unsubscribed, commands and polls sent. -/

universe u

namespace HomelabApps.MiotBridge.Handlers

open HomelabApps.MiotBridge.DeviceCommand
open HomelabApps.MiotBridge.PropertyPoller (Poller addProperty)

structure DeviceCache where
  id : String
  deviceId : Nat
  address : String
  token : String
  deriving DecidableEq, Repr

structure DeviceNotification where
  id : Nat
  deviceId : String
  property : String
  deriving DecidableEq, Repr

/-- `issued` are the device ids given so far, which are never given again. -/
structure Storage where
  devices : List DeviceCache := []
  notifications : List DeviceNotification := []
  issued : List String := []
  nextNotification : Nat := 0
  deriving DecidableEq, Repr

inductive Call
  | deviceById (id : String)
  | deviceByDeviceId (deviceId : Nat)
  | createDevice (deviceId : Nat) (address token : String)
  | deleteDevice (id : String)
  | notificationById (id : Nat)
  | notificationsByDeviceId (deviceId : String)
  | createNotification (deviceId property : String)
  | deleteNotification (id : Nat)
  | deleteAllByDeviceId (deviceId : String)
  deriving DecidableEq, Repr

inductive Answer (Value : Type u)
  | device (device : Option DeviceCache)
  | notification (notification : Option DeviceNotification)
  | notifications (notifications : List DeviceNotification)
  | done
  | discovered (deviceId : Nat)
  | spec (spec : SimplifiedMiotSpec Value)

variable {Value : Type u}

/-- One call as the database carries it out; `id` is the one it gives a new device. `castId` is the id that a text
names, as it is stored, and `none` for a text that is no id; notifications keep the text they were given. -/
def Storage.execute (castId : String → Option String) (s : Storage) (id : String) :
    Call → Option (Storage × Answer Value)
  | .deviceById id => some (s, .device ((castId id).bind fun id => s.devices.find? (·.id = id)))
  | .deviceByDeviceId deviceId => some (s, .device (s.devices.find? (·.deviceId = deviceId)))
  | .createDevice deviceId address token =>
    if id ∈ s.issued then none
    else
      let device := ⟨id, deviceId, address, token⟩
      some ({ s with devices := s.devices ++ [device], issued := id :: s.issued }, .device (some device))
  | .deleteDevice id =>
    match castId id with
    | some id => some ({ s with devices := s.devices.filter (·.id ≠ id) }, .done)
    | none => some (s, .done)
  | .notificationById id => some (s, .notification (s.notifications.find? (·.id = id)))
  | .notificationsByDeviceId deviceId =>
    some (s, .notifications (s.notifications.filter (·.deviceId = deviceId)))
  | .createNotification deviceId property =>
    let notification := ⟨s.nextNotification, deviceId, property⟩
    some
      ({ s with
        notifications := s.notifications ++ [notification]
        nextNotification := s.nextNotification + 1 },
        .notification (some notification))
  | .deleteNotification id =>
    some ({ s with notifications := s.notifications.filter (·.id ≠ id) }, .done)
  | .deleteAllByDeviceId deviceId =>
    some ({ s with notifications := s.notifications.filter (·.deviceId ≠ deviceId) }, .done)

def vacuumId : String := "65f0a1b2c3d4e5f60718293a"

def successorId : String := "65f0a1b2c3d4e5f60718293b"

/-- The cast on the two ids above: 24 hexadecimal digits of either case name the same record. -/
def castObjectId (text : String) : Option String :=
  if text = vacuumId ∨ text = "65F0A1B2C3D4E5F60718293A" then some vacuumId
  else if text = successorId ∨ text = "65F0A1B2C3D4E5F60718293B" then some successorId
  else none

structure DeviceRequest where
  address : String
  token : String
  deriving DecidableEq, Repr

/-! Where each handler waits. What a discovery and a spec are made of is read elsewhere; their
awaits in a row are one. -/

inductive DevicePost
  | discover
  | getByDeviceId (deviceId : Nat)
  | create (deviceId : Nat)
  deriving DecidableEq, Repr

inductive DeviceDelete
  | getById
  | deleteNotifications (device : DeviceCache)
  | delete (device : DeviceCache)
  deriving DecidableEq, Repr

inductive NotificationPost
  | getById
  | map (device : DeviceCache)
  | getAllByDeviceId
  | create (existing created : List DeviceNotification) (property : String) (rest : List String)
  deriving DecidableEq, Repr

inductive NotificationDelete
  | getById
  | deleteById (notification : DeviceNotification)
  | getAllByDeviceId (notification : DeviceNotification)
  deriving DecidableEq, Repr

inductive Lookup
  | get
  | map (device : DeviceCache)
  deriving DecidableEq, Repr

inductive Handler (Value : Type u)
  | devicePost (request : DeviceRequest) (stage : DevicePost)
  | deviceDelete (id : String) (stage : DeviceDelete)
  | notificationPost (deviceId : String) (properties : List String) (stage : NotificationPost)
  | notificationDelete (deviceId : String) (id : Nat) (stage : NotificationDelete)
  | notificationDeleteAll (deviceId : String)
  | execute (request : DeviceCommandRequest Value) (stage : Lookup)
  | executeRaw (deviceId : Nat) (invalid : Option String)
  | getProperties (storageId : String) (keys : List String) (stage : Lookup)

inductive Request (Value : Type u)
  | devicePost (request : DeviceRequest)
  | deviceDelete (id : String)
  | notificationPost (deviceId : String) (properties : List String)
  | notificationDelete (deviceId : String) (id : Nat)
  | notificationDeleteAll (deviceId : String)
  | execute (request : DeviceCommandRequest Value)
  | executeRaw (deviceId : Nat) (invalid : Option String)
  | getProperties (storageId : String) (keys : List String)

def Request.handler : Request Value → Handler Value
  | .devicePost request => .devicePost request .discover
  | .deviceDelete id => .deviceDelete id .getById
  | .notificationPost deviceId properties => .notificationPost deviceId properties .getById
  | .notificationDelete deviceId id => .notificationDelete deviceId id .getById
  | .notificationDeleteAll deviceId => .notificationDeleteAll deviceId
  | .execute request => .execute request .get
  | .executeRaw deviceId invalid => .executeRaw deviceId invalid
  | .getProperties storageId keys => .getProperties storageId keys .get

def Handler.request : Handler Value → Request Value
  | .devicePost request _ => .devicePost request
  | .deviceDelete id _ => .deviceDelete id
  | .notificationPost deviceId properties _ => .notificationPost deviceId properties
  | .notificationDelete deviceId id _ => .notificationDelete deviceId id
  | .notificationDeleteAll deviceId => .notificationDeleteAll deviceId
  | .execute request _ => .execute request
  | .executeRaw deviceId invalid => .executeRaw deviceId invalid
  | .getProperties storageId keys _ => .getProperties storageId keys

def Handler.call : Handler Value → Option Call
  | .devicePost _ .discover => none
  | .devicePost _ (.getByDeviceId deviceId) => some (.deviceByDeviceId deviceId)
  | .devicePost request (.create deviceId) =>
    some (.createDevice deviceId request.address request.token)
  | .deviceDelete id .getById => some (.deviceById id)
  | .deviceDelete id (.deleteNotifications _) => some (.deleteAllByDeviceId id)
  | .deviceDelete id (.delete _) => some (.deleteDevice id)
  | .notificationPost deviceId _ .getById => some (.deviceById deviceId)
  | .notificationPost _ _ (.map _) => none
  | .notificationPost deviceId _ .getAllByDeviceId => some (.notificationsByDeviceId deviceId)
  | .notificationPost deviceId _ (.create _ _ property _) => some (.createNotification deviceId property)
  | .notificationDelete _ id .getById => some (.notificationById id)
  | .notificationDelete _ id (.deleteById _) => some (.deleteNotification id)
  | .notificationDelete deviceId _ (.getAllByDeviceId _) => some (.notificationsByDeviceId deviceId)
  | .notificationDeleteAll deviceId => some (.deleteAllByDeviceId deviceId)
  | .execute request .get => some (.deviceByDeviceId request.deviceId)
  | .execute _ (.map _) => none
  | .executeRaw deviceId _ => some (.deviceByDeviceId deviceId)
  | .getProperties storageId _ .get => some (.deviceById storageId)
  | .getProperties _ _ (.map _) => none

inductive Task (Value : Type u)
  | waiting (handler : Handler Value) (answer : Option (Answer Value))
  | settled (error : Option String)

inductive Effect
  | nothing
  | addSubscriptions (deviceId : String) (properties : List String)
  | removeSubscription (deviceId property : String)
  | removeAllSubscriptions (deviceId : String)
  | removeInstance (deviceId : Nat)
  | send (device : DeviceCache)
  deriving DecidableEq, Repr

def deviceNotFound (id : String) : String := "Device " ++ id ++ " not found."

def deviceNotCached (deviceId : Nat) : String :=
  "Device " ++ toString deviceId ++ " not found in cache. Register the device first."

def unsubscribable (spec : SimplifiedMiotSpec Value) (deviceId : String) : List String → Option String
  | [] => none
  | key :: keys =>
    match spec.properties key with
    | none => some ("Property '" ++ key ++ "' not found in spec for device " ++ deviceId ++ ".")
    | some prop =>
      if .read ∉ prop.access ∧ .notify ∉ prop.access then
        some ("Property '" ++ key ++ "' does not have READ or NOTIFY access and cannot be subscribed.")
      else unsubscribable spec deviceId keys

def subscribeFrom (deviceId : String) (properties : List String) (existing : List DeviceNotification) :
    List DeviceNotification → List String → Effect × Task Value
  | _, [] => (.addSubscriptions deviceId properties, .settled none)
  | created, property :: rest =>
    match existing.find? (·.property = property) with
    | some duplicate => subscribeFrom deviceId properties existing (created ++ [duplicate]) rest
    | none =>
      (.nothing, .waiting (.notificationPost deviceId properties (.create existing created property rest)) none)

/-! From one await to the next; `none` when the answer is not one to the call. -/

def DevicePost.resume (request : DeviceRequest) :
    DevicePost → Answer Value → Option (Effect × Task Value)
  | .discover, .discovered deviceId =>
    some (.nothing, .waiting (.devicePost request (.getByDeviceId deviceId)) none)
  | .getByDeviceId deviceId, .device (some _) =>
    some (.nothing,
      .settled (some ("Device with deviceId " ++ toString deviceId ++ " is already registered.")))
  | .getByDeviceId deviceId, .device none =>
    some (.nothing, .waiting (.devicePost request (.create deviceId)) none)
  | .create _, .device _ => some (.nothing, .settled none)
  | _, _ => none

def DeviceDelete.resume (id : String) : DeviceDelete → Answer Value → Option (Effect × Task Value)
  | .getById, .device none => some (.nothing, .settled (some (deviceNotFound id)))
  | .getById, .device (some device) =>
    some (.nothing, .waiting (.deviceDelete id (.deleteNotifications device)) none)
  | .deleteNotifications device, .done =>
    some (.removeAllSubscriptions id, .waiting (.deviceDelete id (.delete device)) none)
  | .delete device, .done => some (.removeInstance device.deviceId, .settled none)
  | _, _ => none

def NotificationPost.resume (deviceId : String) (properties : List String) :
    NotificationPost → Answer Value → Option (Effect × Task Value)
  | .getById, .device none => some (.nothing, .settled (some (deviceNotFound deviceId)))
  | .getById, .device (some device) =>
    some (.nothing, .waiting (.notificationPost deviceId properties (.map device)) none)
  | .map _, .spec spec =>
    match unsubscribable spec deviceId properties with
    | some error => some (.nothing, .settled (some error))
    | none => some (.nothing, .waiting (.notificationPost deviceId properties .getAllByDeviceId) none)
  | .getAllByDeviceId, .notifications existing =>
    some (subscribeFrom deviceId properties existing [] (properties.foldl addProperty []))
  | .create existing created _ rest, .notification (some notification) =>
    some (subscribeFrom deviceId properties existing (created ++ [notification]) rest)
  | _, _ => none

def NotificationDelete.resume (deviceId : String) (id : Nat) :
    NotificationDelete → Answer Value → Option (Effect × Task Value)
  | .getById, .notification none =>
    some (.nothing, .settled (some ("Notification " ++ toString id ++ " not found.")))
  | .getById, .notification (some notification) =>
    if notification.deviceId ≠ deviceId then
      some (.nothing, .settled
        (some ("Notification " ++ toString id ++ " does not belong to device " ++ deviceId ++ ".")))
    else some (.nothing, .waiting (.notificationDelete deviceId id (.deleteById notification)) none)
  | .deleteById notification, .done =>
    some (.nothing, .waiting (.notificationDelete deviceId id (.getAllByDeviceId notification)) none)
  | .getAllByDeviceId notification, .notifications remaining =>
    some (if remaining.any (·.property = notification.property) then .nothing
      else .removeSubscription deviceId notification.property, .settled none)
  | _, _ => none

def resumeExecute (request : DeviceCommandRequest Value) :
    Lookup → Answer Value → Option (Effect × Task Value)
  | .get, .device none => some (.nothing, .settled (some (deviceNotCached request.deviceId)))
  | .get, .device (some device) => some (.nothing, .waiting (.execute request (.map device)) none)
  | .map device, .spec spec =>
    match resolveCommand request device.deviceId spec with
    | .error error => some (.nothing, .settled (some error))
    | .ok _ => some (.send device, .settled none)
  | _, _ => none

def resumeExecuteRaw (deviceId : Nat) (invalid : Option String) :
    Answer Value → Option (Effect × Task Value)
  | .device none => some (.nothing, .settled (some (deviceNotCached deviceId)))
  | .device (some device) =>
    match invalid with
    | some error => some (.nothing, .settled (some error))
    | none => some (.send device, .settled none)
  | _ => none

def resumeGetProperties (storageId : String) (keys : List String) :
    Lookup → Answer Value → Option (Effect × Task Value)
  | .get, .device none => some (.nothing, .settled (some (deviceNotFound storageId)))
  | .get, .device (some device) =>
    some (.nothing, .waiting (.getProperties storageId keys (.map device)) none)
  | .map device, .spec spec =>
    some (if resolvedProperties spec keys = [] then .nothing else .send device, .settled none)
  | _, _ => none

def Handler.resume : Handler Value → Answer Value → Option (Effect × Task Value)
  | .devicePost request stage, answer => stage.resume request answer
  | .deviceDelete id stage, answer => stage.resume id answer
  | .notificationPost deviceId properties stage, answer => stage.resume deviceId properties answer
  | .notificationDelete deviceId id stage, answer => stage.resume deviceId id answer
  | .notificationDeleteAll deviceId, .done => some (.removeAllSubscriptions deviceId, .settled none)
  | .notificationDeleteAll _, _ => none
  | .execute request stage, answer => resumeExecute request stage answer
  | .executeRaw deviceId invalid, answer => resumeExecuteRaw deviceId invalid answer
  | .getProperties storageId keys stage, answer => resumeGetProperties storageId keys stage answer

def Task.Serves (request : Request Value) : Task Value → Prop
  | .waiting handler answer => handler.request = request ∧ answer = none
  | .settled _ => True

theorem serves_subscribeFrom (deviceId : String) (properties : List String)
    (existing created : List DeviceNotification) (rest : List String) :
    (subscribeFrom deviceId properties existing created rest : Effect × Task Value).2.Serves
      (.notificationPost deviceId properties) := by
  induction rest generalizing created with
  | nil => trivial
  | cons property rest ih =>
    unfold subscribeFrom
    split
    · exact ih _
    · exact ⟨rfl, rfl⟩

theorem effect_subscribeFrom (deviceId : String) (properties : List String)
    (existing created : List DeviceNotification) (rest : List String) :
    (subscribeFrom deviceId properties existing created rest : Effect × Task Value).1 = .nothing ∨
      (subscribeFrom deviceId properties existing created rest : Effect × Task Value).1 =
        .addSubscriptions deviceId properties := by
  induction rest generalizing created with
  | nil => exact .inr rfl
  | cons property rest ih =>
    unfold subscribeFrom
    split
    · exact ih _
    · exact .inl rfl

theorem serves_resume {handler : Handler Value} {answer : Answer Value} {next : Effect × Task Value}
    (h : handler.resume answer = some next) : next.2.Serves handler.request := by
  cases handler with
  | devicePost request stage =>
    simp only [Handler.resume] at h
    unfold DevicePost.resume at h
    split at h <;> cases h <;> trivial
  | deviceDelete id stage =>
    simp only [Handler.resume] at h
    unfold DeviceDelete.resume at h
    split at h <;> cases h <;> trivial
  | notificationPost deviceId properties stage =>
    simp only [Handler.resume] at h
    unfold NotificationPost.resume at h
    split at h
    · cases h
      trivial
    · cases h
      exact ⟨rfl, rfl⟩
    · split at h <;> cases h <;> trivial
    · obtain rfl := Option.some.inj h
      exact serves_subscribeFrom ..
    · obtain rfl := Option.some.inj h
      exact serves_subscribeFrom ..
    · cases h
  | notificationDelete deviceId id stage =>
    simp only [Handler.resume] at h
    unfold NotificationDelete.resume at h
    split at h
    · cases h
      trivial
    · split at h <;> cases h <;> trivial
    · cases h
      exact ⟨rfl, rfl⟩
    · cases h
      trivial
    · cases h
  | notificationDeleteAll deviceId =>
    cases answer with
    | done =>
      cases h
      trivial
    | _ => cases h
  | execute request stage =>
    simp only [Handler.resume] at h
    unfold resumeExecute at h
    split at h
    · cases h
      trivial
    · cases h
      exact ⟨rfl, rfl⟩
    · split at h <;> cases h <;> trivial
    · cases h
  | executeRaw deviceId invalid =>
    simp only [Handler.resume] at h
    unfold resumeExecuteRaw at h
    split at h
    · cases h
      trivial
    · split at h <;> cases h <;> trivial
    · cases h
  | getProperties storageId keys stage =>
    simp only [Handler.resume] at h
    unfold resumeGetProperties at h
    split at h <;> cases h <;> trivial

/-- A device client; `registration` is the stored record it was built for. -/
structure MiotDevice where
  deviceId : Nat
  address : String
  token : String
  registration : String
  deriving DecidableEq, Repr

def MiotDevice.new (device : DeviceCache) : MiotDevice :=
  ⟨device.deviceId, device.address, device.token, device.id⟩

structure Sent where
  device : DeviceCache
  client : MiotDevice
  deriving DecidableEq, Repr

structure Bridge (Value : Type u) where
  storage : Storage
  poller : Poller Value := {}
  registry : Nat → Option MiotDevice := fun _ => none
  sent : List Sent := []
  tasks : List (Task Value) := []

/-- `getOrCreate`: the client of the hardware id, built for the device when there is none. -/
def Bridge.client (s : Bridge Value) (device : DeviceCache) : MiotDevice :=
  (s.registry device.deviceId).getD (.new device)

def Bridge.apply (s : Bridge Value) : Effect → Bridge Value
  | .nothing => s
  | .addSubscriptions deviceId properties =>
    { s with poller := s.poller.addSubscriptions deviceId properties }
  | .removeSubscription deviceId property =>
    { s with poller := s.poller.removeSubscription deviceId property }
  | .removeAllSubscriptions deviceId =>
    { s with poller := s.poller.removeAllSubscriptions deviceId }
  | .removeInstance deviceId => { s with registry := Function.update s.registry deviceId none }
  | .send device =>
    { s with
      registry := Function.update s.registry device.deviceId (some (s.client device))
      sent := s.sent ++ [⟨device, s.client device⟩] }

def Bridge.put (s : Bridge Value) (n : Nat) (task : Task Value) : Bridge Value :=
  { s with tasks := s.tasks.set n task }

def Bridge.load (storage : Storage) : Bridge Value :=
  { storage := storage
    poller := storage.notifications.foldl (fun p n => p.addSubscriptions n.deviceId [n.property]) {} }

/-- `execute` is the database carrying out the call a task waits for, `answer` what comes from
elsewhere; a call that fails may have been carried out or not. -/
inductive Event (Value : Type u)
  | start (request : Request Value)
  | execute (n : Nat) (id : String)
  | answer (n : Nat) (answer : Answer Value)
  | resume (n : Nat)
  | fail (n : Nat) (error : String)

def Bridge.step (castId : String → Option String) (s : Bridge Value) : Event Value → Option (Bridge Value)
  | .start request => some { s with tasks := s.tasks ++ [.waiting request.handler none] }
  | .execute n id =>
    match s.tasks[n]? with
    | some (.waiting handler none) =>
      handler.call.bind fun call => (s.storage.execute castId id call).map fun (storage, answer) =>
        { s with storage := storage }.put n (.waiting handler (some answer))
    | _ => none
  | .answer n answer =>
    match s.tasks[n]? with
    | some (.waiting handler none) =>
      if handler.call = none then some (s.put n (.waiting handler (some answer))) else none
    | _ => none
  | .resume n =>
    match s.tasks[n]? with
    | some (.waiting handler (some answer)) =>
      (handler.resume answer).map fun (effect, task) => (s.put n task).apply effect
    | _ => none
  | .fail n error =>
    match s.tasks[n]? with
    | some (.waiting _ _) => some (s.put n (.settled (some error)))
    | _ => none

def Bridge.Idle (s : Bridge Value) : Prop := ∀ task ∈ s.tasks, ∃ error, task = .settled error

variable {castId : String → Option String}

theorem devices_execute {storage storage' : Storage} {id : String} {call : Call}
    {answer : Answer Value} (h : storage.execute castId id call = some (storage', answer))
    (hcreate : ∀ deviceId address token, call ≠ .createDevice deviceId address token) :
    storage'.devices.Sublist storage.devices := by
  cases call with
  | createDevice deviceId address token => exact absurd rfl (hcreate deviceId address token)
  | deleteDevice id =>
    simp only [Storage.execute] at h
    split at h
    · cases h
      exact List.filter_sublist
    · cases h
      exact List.Sublist.refl _
  | _ =>
    cases h
    exact List.Sublist.refl _

theorem create_call {handler : Handler Value} {deviceId : Nat} {address token : String}
    (h : handler.call = some (.createDevice deviceId address token)) :
    ∃ request, handler = .devicePost request (.create deviceId) ∧ request.address = address ∧
      request.token = token := by
  unfold Handler.call at h
  split at h <;> cases h
  exact ⟨_, rfl, rfl, rfl⟩

theorem task_put {s : Bridge Value} {n m : Nat} {task task' : Task Value}
    (h : (s.put n task).tasks[m]? = some task') : (m = n ∧ task' = task) ∨ (m ≠ n ∧ s.tasks[m]? = some task') := by
  rw [Bridge.put] at h
  exact Library.getElem?_set_cases h

theorem task_put_of_ne {s : Bridge Value} {n m : Nat} {task : Task Value} (h : m ≠ n) :
    (s.put n task).tasks[m]? = s.tasks[m]? := by
  rw [Bridge.put, List.getElem?_set_ne h.symm]

theorem task_put_self {s : Bridge Value} {n : Nat} {task task' : Task Value}
    (h : s.tasks[n]? = some task') : (s.put n task).tasks[n]? = some task := by
  rw [Bridge.put, List.getElem?_set_self (List.getElem?_eq_some_iff.mp h).1]

@[simp] theorem tasks_apply (s : Bridge Value) (effect : Effect) : (s.apply effect).tasks = s.tasks := by
  cases effect <;> rfl

@[simp] theorem storage_apply (s : Bridge Value) (effect : Effect) :
    (s.apply effect).storage = s.storage := by
  cases effect <;> rfl

theorem apply_put (s : Bridge Value) (n : Nat) (task : Task Value) (effect : Effect) :
    (s.put n task).apply effect = (s.apply effect).put n task := by
  cases effect <;> rfl

inductive Step (castId : String → Option String) (s : Bridge Value) : Event Value → Bridge Value → Prop
  | start (request : Request Value) :
    Step castId s (.start request) { s with tasks := s.tasks ++ [.waiting request.handler none] }
  | execute {n : Nat} {id : String} {handler : Handler Value} {call : Call} {storage : Storage}
      {answer : Answer Value} : s.tasks[n]? = some (.waiting handler none) →
    handler.call = some call → s.storage.execute castId id call = some (storage, answer) →
    Step castId s (.execute n id) ({ s with storage := storage }.put n (.waiting handler (some answer)))
  | answer {n : Nat} {handler : Handler Value} {answer : Answer Value} :
    s.tasks[n]? = some (.waiting handler none) → handler.call = none →
    Step castId s (.answer n answer) (s.put n (.waiting handler (some answer)))
  | resume {n : Nat} {handler : Handler Value} {answer : Answer Value} {effect : Effect}
      {task : Task Value} : s.tasks[n]? = some (.waiting handler (some answer)) →
    handler.resume answer = some (effect, task) → Step castId s (.resume n) ((s.put n task).apply effect)
  | fail {n : Nat} {handler : Handler Value} {answer : Option (Answer Value)} {error : String} :
    s.tasks[n]? = some (.waiting handler answer) →
    Step castId s (.fail n error) (s.put n (.settled (some error)))

theorem step_cases {s t : Bridge Value} {e : Event Value} (h : s.step castId e = some t) : Step castId s e t := by
  cases e with
  | start request =>
    cases h
    exact .start request
  | execute n id =>
    simp only [Bridge.step] at h
    split at h
    · rename_i handler htask
      obtain ⟨call, hcall, h⟩ := Option.bind_eq_some_iff.mp h
      obtain ⟨⟨storage, answer⟩, hexecute, rfl⟩ := Option.map_eq_some_iff.mp h
      exact .execute htask hcall hexecute
    · cases h
  | answer n answer =>
    simp only [Bridge.step] at h
    split at h
    · rename_i handler htask
      obtain ⟨hcall, h⟩ := Option.ite_none_right_eq_some.mp h
      cases h
      exact .answer htask hcall
    · cases h
  | resume n =>
    simp only [Bridge.step] at h
    split at h
    · rename_i handler answer htask
      obtain ⟨⟨effect, task⟩, hresume, rfl⟩ := Option.map_eq_some_iff.mp h
      exact .resume htask hresume
    · cases h
  | fail n error =>
    simp only [Bridge.step] at h
    split at h
    · rename_i handler answer htask
      cases h
      exact .fail htask
    · cases h

end HomelabApps.MiotBridge.Handlers
