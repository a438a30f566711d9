import HomelabApps.Library.Table
import HomelabApps.MiotBridge.Handlers

universe u

namespace HomelabApps.MiotBridge.Handlers

open HomelabApps.Library
open HomelabApps.Library.Transition

variable {Value : Type u}

def Task.lookingUp : Task Value → Option Nat
  | .waiting (.devicePost _ (.getByDeviceId deviceId)) none => some deviceId
  | _ => none

def Task.registering : Task Value → Option Nat
  | .waiting (.devicePost _ (.getByDeviceId deviceId)) (some (.device none)) => some deviceId
  | .waiting (.devicePost _ (.create deviceId)) none => some deviceId
  | _ => none

def Bridge.lookingUp (s : Bridge Value) (n : Nat) : Option Nat := s.tasks[n]?.bind Task.lookingUp

def Bridge.registering (s : Bridge Value) (n : Nat) : Option Nat := s.tasks[n]?.bind Task.registering

/-- A registration finds its hardware id free only while no other one has found it free and is
still to store its record. -/
def Bridge.Alone (s : Bridge Value) : Event Value → Prop
  | .execute n _ =>
    (s.lookingUp n).all (fun deviceId =>
      s.storage.devices.any (·.deviceId = deviceId) ||
        s.tasks.all (·.registering ≠ some deviceId)) = true
  | _ => True

instance (s : Bridge Value) (e : Event Value) : Decidable (s.Alone e) :=
  match e with
  | .execute _ _ => inferInstanceAs (Decidable (_ = true))
  | .start _ => .isTrue trivial
  | .answer _ _ => .isTrue trivial
  | .resume _ => .isTrue trivial
  | .fail _ _ => .isTrue trivial

def Storage.OneRecord (s : Storage) : Prop := (s.devices.map (·.deviceId)).Nodup

structure Bridge.Unique (s : Bridge Value) : Prop where
  stored : s.storage.OneRecord
  free : ∀ n deviceId, s.registering n = some deviceId →
    deviceId ∉ s.storage.devices.map (·.deviceId)
  alone : ∀ n m deviceId, s.registering n = some deviceId → s.registering m = some deviceId → n = m

variable {s t : Bridge Value} {n m : Nat} {deviceId : Nat} {task : Task Value} {castId : String → Option String}

theorem registering_put :
    (s.put n task).registering m = some deviceId →
      (m = n ∧ task.registering = some deviceId) ∨ (m ≠ n ∧ s.registering m = some deviceId) := by
  intro h
  obtain ⟨task', htask', hreg⟩ := Option.bind_eq_some_iff.mp h
  rcases task_put htask' with ⟨rfl, rfl⟩ | ⟨hne, hm⟩
  · exact .inl ⟨rfl, hreg⟩
  · exact .inr ⟨hne, Option.bind_eq_some_iff.mpr ⟨task', hm, hreg⟩⟩

theorem registering_of {task' : Task Value} (h : s.tasks[n]? = some task') :
    s.registering n = task'.registering := by
  rw [Bridge.registering, h, Option.bind_some]

theorem Bridge.Unique.shrink (h : s.Unique)
    (hdevices : t.storage.devices.Sublist s.storage.devices)
    (htasks : ∀ m d, t.registering m = some d → s.registering m = some d) : t.Unique where
  stored := h.stored.sublist (hdevices.map _)
  free m d hm hmem := h.free m d (htasks m d hm) ((hdevices.map _).subset hmem)
  alone m m' d hm hm' := h.alone m m' d (htasks m d hm) (htasks m' d hm')

theorem registering_answered {handler : Handler Value} {answer : Answer Value}
    (h : (Task.waiting handler (some answer)).registering = some deviceId) :
    ∃ request, handler = .devicePost request (.getByDeviceId deviceId) ∧ answer = .device none := by
  unfold Task.registering at h
  split at h
  · rename_i request d heq
    cases heq
    cases h
    exact ⟨request, rfl, rfl⟩
  · rename_i heq
    cases heq
  · cases h

theorem registering_waiting {handler : Handler Value}
    (h : (Task.waiting handler none).registering = some deviceId) :
    ∃ request, handler = .devicePost request (.create deviceId) := by
  unfold Task.registering at h
  split at h
  · rename_i heq
    cases heq
  · rename_i request d heq
    cases heq
    cases h
    exact ⟨request, rfl⟩
  · cases h

theorem registering_handler (request : Request Value) :
    (Task.waiting request.handler none).registering = none := by
  cases request <;> rfl

theorem registering_resume {handler : Handler Value} {answer : Answer Value} {effect : Effect}
    (h : handler.resume answer = some (effect, task)) (hreg : task.registering = some deviceId) :
    (Task.waiting handler (some answer)).registering = some deviceId := by
  cases task with
  | settled error => cases hreg
  | waiting next a =>
    obtain ⟨hrequest, rfl⟩ := serves_resume h
    obtain ⟨request, rfl⟩ := registering_waiting hreg
    cases handler with
    | devicePost request' stage =>
      simp only [Handler.resume] at h
      unfold DevicePost.resume at h
      split at h <;> cases h
      rfl
    | _ => cases hrequest

theorem unique_create {handler : Handler Value} {answer : Answer Value} {storage : Storage}
    {device : DeviceCache} (h : s.Unique) (hn : s.registering n = some device.deviceId)
    (hstored : storage.devices = s.storage.devices ++ [device])
    (hanswer : (Task.waiting handler (some answer)).registering = none) :
    (Bridge.put { s with storage := storage } n (.waiting handler (some answer))).Unique := by
  have hregs : ∀ m d, (Bridge.put { s with storage := storage } n
      (.waiting handler (some answer))).registering m = some d →
      m ≠ n ∧ s.registering m = some d := by
    intro m d hm
    rcases registering_put hm with ⟨-, hreg⟩ | hm
    · rw [hanswer] at hreg
      cases hreg
    · exact hm
  refine ⟨?_, fun m d hm hmem => ?_, fun m m' d hm hm' => ?_⟩
  · dsimp only [Storage.OneRecord, Bridge.put]
    rw [hstored]
    exact Table.nodup_append h.stored (h.free n _ hn)
  · obtain ⟨hne, hm⟩ := hregs m d hm
    dsimp only [Bridge.put] at hmem
    rw [hstored, List.map_append, List.mem_append, List.map_singleton, List.mem_singleton] at hmem
    rcases hmem with hmem | rfl
    · exact h.free m d hm hmem
    · exact hne (h.alone m n _ hm hn)
  · exact h.alone m m' d (hregs m d hm).2 (hregs m' d hm').2

theorem unique_lookup {request : DeviceRequest} {answer : Answer Value} (h : s.Unique)
    (hfree : answer = .device none → deviceId ∉ s.storage.devices.map (·.deviceId) ∧
      ∀ m, s.registering m ≠ some deviceId) :
    (s.put n (.waiting (.devicePost request (.getByDeviceId deviceId)) (some answer))).Unique := by
  have hregs : ∀ m d, (s.put n
      (.waiting (.devicePost request (.getByDeviceId deviceId)) (some answer))).registering m = some d →
      (m = n ∧ d = deviceId ∧ answer = .device none) ∨ s.registering m = some d := by
    intro m d hm
    rcases registering_put hm with ⟨rfl, hreg⟩ | ⟨-, hm⟩
    · obtain ⟨_, heq, hnone⟩ := registering_answered hreg
      cases heq
      exact .inl ⟨rfl, rfl, hnone⟩
    · exact .inr hm
  refine ⟨h.stored, fun m d hm => ?_, fun m m' d hm hm' => ?_⟩
  · rcases hregs m d hm with ⟨-, rfl, hnone⟩ | hm
    · exact (hfree hnone).1
    · exact h.free m d hm
  · rcases hregs m d hm with ⟨rfl, rfl, hnone⟩ | hold
    · rcases hregs m' d hm' with ⟨rfl, -, -⟩ | hold'
      · rfl
      · exact absurd hold' ((hfree hnone).2 m')
    · rcases hregs m' d hm' with ⟨rfl, rfl, hnone⟩ | hold'
      · exact absurd hold ((hfree hnone).2 m)
      · exact h.alone m m' d hold hold'

theorem Bridge.Alone.free {id : String} {request : DeviceRequest}
    (h : s.Alone (.execute n id))
    (htask : s.tasks[n]? = some (.waiting (.devicePost request (.getByDeviceId deviceId)) none))
    (hnone : s.storage.devices.find? (·.deviceId = deviceId) = none) :
    deviceId ∉ s.storage.devices.map (·.deviceId) ∧ ∀ m, s.registering m ≠ some deviceId := by
  have hstored : ∀ device ∈ s.storage.devices, device.deviceId ≠ deviceId := by
    simpa using List.find?_eq_none.mp hnone
  have hlook : s.lookingUp n = some deviceId := by
    rw [Bridge.lookingUp, htask, Option.bind_some, Task.lookingUp]
  refine ⟨fun hmem => ?_, fun m hm => ?_⟩
  · obtain ⟨device, hdevice, hid⟩ := List.mem_map.mp hmem
    exact hstored device hdevice hid
  · obtain ⟨task, htask', hreg⟩ := Option.bind_eq_some_iff.mp hm
    simp only [Bridge.Alone, hlook, Option.all_some, Bool.or_eq_true, List.any_eq_true,
      decide_eq_true_eq, List.all_eq_true] at h
    rcases h with ⟨device, hdevice, hid⟩ | hnot
    · exact hstored device hdevice hid
    · exact hnot task (List.mem_of_getElem? htask') hreg

theorem unique_step (s : Bridge Value) (e : Event Value) (t : Bridge Value) (h : s.Unique)
    (halone : s.Alone e) (hstep : s.step castId e = some t) : t.Unique := by
  cases step_cases hstep with
  | start request =>
    refine h.shrink (List.Sublist.refl _) fun m d hm => ?_
    obtain ⟨task, htask, hreg⟩ := Option.bind_eq_some_iff.mp hm
    rcases getElem?_concat_cases htask with htask | ⟨-, rfl⟩
    · exact Option.bind_eq_some_iff.mpr ⟨task, htask, hreg⟩
    · rw [registering_handler] at hreg
      cases hreg
  | @execute n id handler call storage answer htask hcall hexecute =>
    by_cases hcreate : ∃ d address token, call = .createDevice d address token
    · obtain ⟨d, address, token, rfl⟩ := hcreate
      obtain ⟨request, rfl, -, -⟩ := create_call hcall
      obtain ⟨-, hstored⟩ := Option.ite_none_left_eq_some.mp hexecute
      cases hstored
      exact @unique_create _ _ _ _ _ _ ⟨id, d, address, token⟩ h (registering_of htask) rfl rfl
    · have hdevices : storage.devices.Sublist s.storage.devices :=
        devices_execute hexecute fun d address token heq => hcreate ⟨d, address, token, heq⟩
      by_cases hlook : ∃ request d, handler = .devicePost request (.getByDeviceId d)
      · obtain ⟨request, d, rfl⟩ := hlook
        cases hcall
        cases hexecute
        exact unique_lookup h fun hnone => halone.free htask (Answer.device.inj hnone)
      · refine h.shrink hdevices fun m d hm => ?_
        rcases registering_put hm with ⟨rfl, hreg⟩ | ⟨-, hm⟩
        · obtain ⟨request, rfl, -⟩ := registering_answered hreg
          exact absurd ⟨request, d, rfl⟩ hlook
        · exact hm
  | answer htask hcall =>
    refine h.shrink (List.Sublist.refl _) fun m d hm => ?_
    rcases registering_put hm with ⟨rfl, hreg⟩ | ⟨-, hm⟩
    · obtain ⟨request, rfl, -⟩ := registering_answered hreg
      cases hcall
    · exact hm
  | resume htask hresume =>
    refine h.shrink (by rw [storage_apply]; exact List.Sublist.refl _) fun m d hm => ?_
    rw [Bridge.registering, tasks_apply] at hm
    rcases registering_put hm with ⟨rfl, hreg⟩ | ⟨-, hm⟩
    · rw [registering_of htask]
      exact registering_resume hresume hreg
    · exact hm
  | fail htask =>
    refine h.shrink (List.Sublist.refl _) fun m d hm => ?_
    rcases registering_put hm with ⟨-, ⟨⟩⟩ | ⟨-, hm⟩
    exact hm

theorem one_record_per_device {storage : Storage} {events : List (Event Value)}
    (hstart : storage.OneRecord)
    (halone : Along (Bridge.step castId) Bridge.Alone (Bridge.load storage) events)
    (h : run (Bridge.step castId) (Bridge.load storage) events = some s) :
    s.storage.OneRecord := by
  have hload : (Bridge.load storage : Bridge Value).Unique := by
    refine ⟨hstart, ?_, ?_⟩
    · rintro n d ⟨⟩
    · rintro n m d ⟨⟩
  exact ((always_of_along unique_step hload halone).last h).stored

def reregisteredEvents : List (Event Nat) :=
  [.start (.devicePost ⟨"10.0.0.1", "t1"⟩), .answer 0 (.discovered 7), .resume 0, .execute 0 "", .resume 0,
    .execute 0 vacuumId, .resume 0,
    .start (.devicePost ⟨"10.0.0.1", "t1"⟩), .answer 1 (.discovered 7), .resume 1, .execute 1 "", .resume 1,
    .start (.deviceDelete vacuumId), .execute 2 "", .resume 2, .execute 2 "", .resume 2, .execute 2 "", .resume 2,
    .start (.devicePost ⟨"10.0.0.2", "t2"⟩), .answer 3 (.discovered 7), .resume 3, .execute 3 "", .resume 3,
    .execute 3 successorId, .resume 3]

theorem one_record_per_device_reregistered :
    ∃ s : Bridge Nat, s.storage.devices = [⟨successorId, 7, "10.0.0.2", "t2"⟩] ∧ s.storage.OneRecord := by
  have halone : Along (Bridge.step castObjectId) Bridge.Alone (Bridge.load {}) reregisteredEvents := by decide +kernel
  have hdevices : (run (Bridge.step castObjectId) (Bridge.load {}) reregisteredEvents).map (·.storage.devices) =
      some [⟨successorId, 7, "10.0.0.2", "t2"⟩] := by
    decide +kernel
  obtain ⟨s, hs, hmap⟩ := Option.map_eq_some_iff.mp hdevices
  have hempty : Storage.OneRecord {} := List.nodup_nil
  exact ⟨s, hmap, one_record_per_device hempty halone hs⟩

def registeredTwiceEvents : List (Event Nat) :=
  [.start (.devicePost ⟨"10.0.0.1", "t1"⟩), .start (.devicePost ⟨"10.0.0.1", "t1"⟩),
    .answer 0 (.discovered 7), .answer 1 (.discovered 7), .resume 0, .resume 1, .execute 0 "", .execute 1 "",
    .resume 0, .resume 1, .execute 0 vacuumId, .execute 1 successorId, .resume 0, .resume 1]

theorem registered_twice :
    ∃ s : Bridge Nat, run (Bridge.step castObjectId) (Bridge.load {}) registeredTwiceEvents = some s ∧
      ¬s.storage.OneRecord := by
  have hdevices : (run (Bridge.step castObjectId) (Bridge.load {}) registeredTwiceEvents).map (·.storage.devices) =
      some [⟨vacuumId, 7, "10.0.0.1", "t1"⟩, ⟨successorId, 7, "10.0.0.1", "t1"⟩] := by
    decide +kernel
  obtain ⟨s, hs, hmap⟩ := Option.map_eq_some_iff.mp hdevices
  refine ⟨s, hs, fun hone => ?_⟩
  rw [Storage.OneRecord, hmap] at hone
  exact absurd hone (by decide)

end HomelabApps.MiotBridge.Handlers
