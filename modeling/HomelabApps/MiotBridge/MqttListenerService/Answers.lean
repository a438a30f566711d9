import HomelabApps.Library.Lists
import HomelabApps.MiotBridge.MqttListenerService

namespace HomelabApps.MiotBridge.MqttListener

open HomelabApps.Library
open HomelabApps.Library.Json (Parsed)
open HomelabApps.Library.Topics (SLASH)
open HomelabApps.Library.Utf16
open HomelabApps.MiotBridge.Topics

variable {topicPrefix : Option JsString} {issues : Parsed → JsString} {s t : State} {event : Event}
  {earlier events : List Event} {topic result : JsString} {payload : List UInt8} {retain : Bool} {i deviceId : Nat}
  {kind : TopicKind} {task : Task}

def arrival (topicPrefix : Option JsString) : Event → Option (Nat × List UInt8)
  | .message topic payload retain => (commandOf topicPrefix topic retain).map (·, payload)
  | .connect => none
  | .executed _ _ => none
  | .publish _ => none

def Event.isConnect : Event → Bool
  | .connect => true
  | .message _ _ _ => false
  | .executed _ _ => false
  | .publish _ => false

def requested (issues : Parsed → JsString) (message : Nat × List UInt8) : Option (Nat × MqttCommandRequest) :=
  match receive issues message.2 with
  | .nothing => none
  | .refused _ => none
  | .request request => some (message.1, request)

inductive Answers (issues : Parsed → JsString) (events : List Event) (i : Nat) (payload : List UInt8) :
    JsString → Prop
  | refused {result : JsString} : receive issues payload = .refused result → Answers issues events i payload result
  | executed {request : MqttCommandRequest} {outcome : Executed} : receive issues payload = .request request →
      .executed i outcome ∈ events → Answers issues events i payload (resultOf request outcome)

theorem Answers.mono (h : Answers issues earlier i payload result) (hsub : earlier ⊆ events) :
    Answers issues events i payload result := by
  cases h with
  | refused hreceive => exact .refused hreceive
  | executed hreceive houtcome => exact .executed hreceive (hsub houtcome)

theorem Answers.payload_ne_nil (h : Answers issues events i payload result) : payload ≠ [] := by
  intro hnil
  have hnothing : receive issues payload = .nothing := if_pos hnil
  cases h with
  | refused hreceive => cases hnothing.symm.trans hreceive
  | executed hreceive => cases hnothing.symm.trans hreceive

theorem extract_other (hkind : kind ≠ .command) :
    extractDeviceIdFromCommandTopic topicPrefix (kind.topic topicPrefix deviceId) = none := by
  cases hextract : extractDeviceIdFromCommandTopic topicPrefix (kind.topic topicPrefix deviceId) with
  | none => rfl
  | some id =>
    obtain ⟨idStr, htopic, hdigits⟩ := topic_of_extract hextract
    rw [topic_eq, List.append_cancel_left_eq, List.cons.injEq] at htopic
    have hslash : SLASH ∉ idStr := fun hmem => absurd (hdigits SLASH hmem) (by decide)
    have hword := (append_separator_inj slash_notMem_numeral hslash htopic.2).2
    have hcommand : kind = .command := TopicKind.word_injective hword
    exact absurd hcommand hkind

theorem step_published (kind : TopicKind) (hkind : kind ≠ .command) (deviceId : Nat) :
    step topicPrefix issues s (.message (kind.topic topicPrefix deviceId) payload retain) = some s := by
  rw [step, commandOf, extract_other hkind]

inductive Fits (topicPrefix : Option JsString) (issues : Parsed → JsString) (events : List Event)
    (published : List Publication) (i : Nat) : Task → Prop
  | executing {deviceId : Nat} {payload : List UInt8} {request : MqttCommandRequest} :
      receive issues payload = .request request → i ∉ published.map (·.task) →
      Fits topicPrefix issues events published i ⟨deviceId, payload, .executing request⟩
  | responding {deviceId : Nat} {payload : List UInt8} {result : JsString} :
      Answers issues events i payload result → i ∉ published.map (·.task) →
      Fits topicPrefix issues events published i ⟨deviceId, payload, .responding result⟩
  | silent {deviceId : Nat} : i ∉ published.map (·.task) →
      Fits topicPrefix issues events published i ⟨deviceId, [], .finished none⟩
  | answered {deviceId : Nat} {payload : List UInt8} {result : JsString} : Answers issues events i payload result →
      ⟨i, getResponseTopic topicPrefix deviceId, result⟩ ∈ published →
      Fits topicPrefix issues events published i ⟨deviceId, payload, .finished (some result)⟩

structure Inv (topicPrefix : Option JsString) (issues : Parsed → JsString) (events : List Event) (s : State) :
    Prop where
  subscriptions : s.subscriptions =
    List.replicate (1 + (events.filter (·.isConnect)).length) (getCommandSubscriptionPattern topicPrefix)
  tasks : s.tasks.map (fun task => (task.deviceId, task.payload)) = events.filterMap (arrival topicPrefix)
  executed : s.executed = (events.filterMap (arrival topicPrefix)).filterMap (requested issues)
  fits : ∀ i task, s.tasks[i]? = some task → Fits topicPrefix issues events s.published i task
  once : (s.published.map (·.task)).Nodup
  published : ∀ p ∈ s.published, ∃ task, s.tasks[p.task]? = some task ∧
    p.topic = getResponseTopic topicPrefix task.deviceId ∧ task.stage = .finished (some p.result)

theorem inv_start : Inv topicPrefix issues [] (State.start topicPrefix) where
  subscriptions := rfl
  tasks := rfl
  executed := rfl
  fits i task htask := by cases htask
  once := List.nodup_nil
  published p hp := by cases hp

theorem Fits.later {published : List Publication} (h : Fits topicPrefix issues earlier published i task)
    (hsub : earlier ⊆ events) : Fits topicPrefix issues events published i task := by
  cases h with
  | executing hreceive hnot => exact .executing hreceive hnot
  | responding hanswers hnot => exact .responding (hanswers.mono hsub) hnot
  | silent hnot => exact .silent hnot
  | answered hanswers hmem => exact .answered (hanswers.mono hsub) hmem

theorem Fits.publish {published : List Publication} {p : Publication} (h : Fits topicPrefix issues events published i task)
    (hother : p.task ≠ i) : Fits topicPrefix issues events (published ++ [p]) i task := by
  have hnot : i ∉ published.map (·.task) → i ∉ (published ++ [p]).map (·.task) := by
    rw [List.map_append, List.map_singleton, List.mem_append, List.mem_singleton, not_or]
    exact fun hnot => ⟨hnot, Ne.symm hother⟩
  cases h with
  | executing hreceive hfree => exact .executing hreceive (hnot hfree)
  | responding hanswers hfree => exact .responding hanswers (hnot hfree)
  | silent hfree => exact .silent (hnot hfree)
  | answered hanswers hmem => exact .answered hanswers (List.mem_append_left _ hmem)

theorem Inv.onMessage (h : Inv topicPrefix issues earlier s) (hcommand : commandOf topicPrefix topic retain = some deviceId) :
    Inv topicPrefix issues (earlier ++ [.message topic payload retain]) (s.onMessage issues deviceId payload) := by
  have harrival : [Event.message topic payload retain].filterMap (arrival topicPrefix) = [(deviceId, payload)] := by
    rw [List.filterMap_cons, arrival, hcommand]
    rfl
  have hfree : s.tasks.length ∉ s.published.map (·.task) := by
    intro hmem
    obtain ⟨p, hp, htask⟩ := List.mem_map.mp hmem
    obtain ⟨task, hget, -⟩ := h.published p hp
    rw [htask, List.getElem?_eq_none (Nat.le_refl _)] at hget
    cases hget
  -- the same for each of the three ways a payload is received
  have hkept : ∀ (stage : Stage) (executed : List (Nat × MqttCommandRequest)),
      executed = s.executed ++ [(deviceId, payload)].filterMap (requested issues) →
      Fits topicPrefix issues (earlier ++ [.message topic payload retain]) s.published s.tasks.length
        ⟨deviceId, payload, stage⟩ →
      Inv topicPrefix issues (earlier ++ [.message topic payload retain])
        { s with tasks := s.tasks ++ [⟨deviceId, payload, stage⟩], executed := executed } := by
    intro stage executed hexecuted hfits
    exact {
      subscriptions := by
        rw [List.filter_append, List.length_append]
        exact h.subscriptions
      tasks := by
        rw [List.map_append, List.filterMap_append, harrival, h.tasks]
        rfl
      executed := by
        rw [List.filterMap_append, harrival, List.filterMap_append, ← h.executed]
        exact hexecuted
      fits := fun i task htask => by
        rcases getElem?_concat_cases htask with htask | ⟨rfl, rfl⟩
        · exact (h.fits i task htask).later (List.subset_append_left _ _)
        · exact hfits
      once := h.once
      published := fun p hp => by
        obtain ⟨task, hget, hrest⟩ := h.published p hp
        exact ⟨task, by rw [List.getElem?_append_left (List.getElem?_eq_some_iff.mp hget).1, hget], hrest⟩ }
  unfold State.onMessage
  cases hreceive : receive issues payload with
  | nothing =>
    have hnil : payload = [] := by
      unfold receive at hreceive
      split at hreceive
      · assumption
      · split at hreceive
        · cases hreceive
        · split at hreceive <;> cases hreceive
    have hnone : [(deviceId, payload)].filterMap (requested issues) = [] := by
      rw [List.filterMap_cons, requested, hreceive]
      rfl
    exact hkept _ _ (by rw [hnone, List.append_nil]) (by rw [hnil]; exact .silent hfree)
  | refused result =>
    have hnone : [(deviceId, payload)].filterMap (requested issues) = [] := by
      rw [List.filterMap_cons, requested, hreceive]
      rfl
    exact hkept _ _ (by rw [hnone, List.append_nil]) (.responding (.refused hreceive) hfree)
  | request request =>
    have hone : [(deviceId, payload)].filterMap (requested issues) = [(deviceId, request)] := by
      rw [List.filterMap_cons, requested, hreceive]
      rfl
    exact hkept _ _ (by rw [hone]) (.executing hreceive hfree)

inductive Moves (topicPrefix : Option JsString) (s : State) (i : Nat) (task : Task) : Event → State → Prop
  | executed {request : MqttCommandRequest} {outcome : Executed} : task.stage = .executing request →
      Moves topicPrefix s i task (.executed i outcome)
        { s with tasks := s.tasks.set i { task with stage := .responding (resultOf request outcome) } }
  | publish {result : JsString} : task.stage = .responding result →
      Moves topicPrefix s i task (.publish i)
        { s with
          tasks := s.tasks.set i { task with stage := .finished (some result) }
          published := s.published ++ [⟨i, getResponseTopic topicPrefix task.deviceId, result⟩] }

inductive Steps (topicPrefix : Option JsString) (issues : Parsed → JsString) (s : State) : Event → State → Prop
  | connect : Steps topicPrefix issues s .connect (s.subscribe topicPrefix)
  | ignored {topic : JsString} {payload : List UInt8} {retain : Bool} : commandOf topicPrefix topic retain = none →
      Steps topicPrefix issues s (.message topic payload retain) s
  | taken {topic : JsString} {payload : List UInt8} {retain : Bool} {deviceId : Nat} :
      commandOf topicPrefix topic retain = some deviceId →
      Steps topicPrefix issues s (.message topic payload retain) (s.onMessage issues deviceId payload)
  | moves {i : Nat} {task : Task} {event : Event} {t : State} : s.tasks[i]? = some task →
      Moves topicPrefix s i task event t → Steps topicPrefix issues s event t

theorem steps (hstep : step topicPrefix issues s event = some t) : Steps topicPrefix issues s event t := by
  cases event with
  | connect =>
    cases hstep
    exact .connect
  | message topic payload retain =>
    cases hcommand : commandOf topicPrefix topic retain with
    | none =>
      rw [step, hcommand] at hstep
      cases hstep
      exact .ignored hcommand
    | some deviceId =>
      rw [step, hcommand] at hstep
      cases hstep
      exact .taken hcommand
  | executed i outcome =>
    rw [step] at hstep
    split at hstep
    · rename_i htask
      cases hstep
      exact .moves htask (.executed rfl)
    · cases hstep
  | publish i =>
    rw [step] at hstep
    split at hstep
    · rename_i htask
      cases hstep
      exact .moves htask (.publish rfl)
    · cases hstep

theorem map_set {tasks : List Task} {stage : Stage} (hget : tasks[i]? = some task) :
    (tasks.set i { task with stage := stage }).map (fun task => (task.deviceId, task.payload)) =
      tasks.map fun task => (task.deviceId, task.payload) := by
  apply List.ext_getElem?
  intro j
  rw [List.getElem?_map, List.getElem?_map]
  cases Decidable.em (j = i) with
  | inl hji =>
    rw [hji, List.getElem?_set_self (List.getElem?_eq_some_iff.mp hget).1, hget]
    rfl
  | inr hji => rw [List.getElem?_set_ne (Ne.symm hji)]

theorem Inv.moves (h : Inv topicPrefix issues earlier s) (hget : s.tasks[i]? = some task)
    (hmoves : Moves topicPrefix s i task event t) : Inv topicPrefix issues (earlier ++ [event]) t := by
  have hsub : earlier ⊆ earlier ++ [event] := List.subset_append_left _ _
  have hfits := h.fits i task hget
  cases hmoves with
  | @executed request outcome hstage =>
    obtain ⟨deviceId, payload, stage⟩ := task
    subst hstage
    cases hfits with
    | executing hreceive hfree =>
      exact {
        subscriptions := by
          rw [List.filter_append, List.length_append]
          exact h.subscriptions
        tasks := by
          rw [map_set hget, h.tasks, List.filterMap_append]
          exact (List.append_nil _).symm
        executed := by
          rw [h.executed, List.filterMap_append]
          exact congrArg _ (List.append_nil _).symm
        fits := fun j found hfound => by
          cases getElem?_set_cases hfound with
          | inl hself =>
            obtain ⟨rfl, rfl⟩ := hself
            exact .responding (.executed hreceive (List.mem_append_right _ (List.mem_singleton_self _))) hfree
          | inr hother => exact (h.fits j found hother.2).later hsub
        once := h.once
        published := fun p hp => by
          obtain ⟨found, hfound, htopic, hstage⟩ := h.published p hp
          have hother : p.task ≠ i := fun heq => hfree (heq ▸ List.mem_map_of_mem hp)
          exact ⟨found, by rw [List.getElem?_set_ne (Ne.symm hother), hfound], htopic, hstage⟩ }
  | @publish result hstage =>
    obtain ⟨deviceId, payload, stage⟩ := task
    subst hstage
    cases hfits with
    | responding hanswers hfree =>
      exact {
        subscriptions := by
          rw [List.filter_append, List.length_append]
          exact h.subscriptions
        tasks := by
          rw [map_set hget, h.tasks, List.filterMap_append]
          exact (List.append_nil _).symm
        executed := by
          rw [h.executed, List.filterMap_append]
          exact congrArg _ (List.append_nil _).symm
        fits := fun j found hfound => by
          cases getElem?_set_cases hfound with
          | inl hself =>
            obtain ⟨rfl, rfl⟩ := hself
            exact .answered (hanswers.mono hsub) (List.mem_append_right _ (List.mem_singleton_self _))
          | inr hother => exact ((h.fits j found hother.2).later hsub).publish (Ne.symm hother.1)
        once := by
          rw [List.map_append, List.map_singleton]
          apply List.nodup_append.mpr
          refine ⟨h.once, List.nodup_singleton i, fun a ha b hb heq => hfree ?_⟩
          have hb : b = i := List.mem_singleton.mp hb
          rwa [← hb, ← heq]
        published := fun p hp => by
          cases List.mem_append.mp hp with
          | inl hp =>
            obtain ⟨found, hfound, htopic, hstage⟩ := h.published p hp
            have hother : p.task ≠ i := fun heq => hfree (heq ▸ List.mem_map_of_mem hp)
            exact ⟨found, by rw [List.getElem?_set_ne (Ne.symm hother), hfound], htopic, hstage⟩
          | inr hp =>
            rw [List.mem_singleton.mp hp]
            have hlt := (List.getElem?_eq_some_iff.mp hget).1
            exact ⟨_, List.getElem?_set_self hlt, rfl, rfl⟩ }

theorem Inv.step (h : Inv topicPrefix issues earlier s) (hstep : step topicPrefix issues s event = some t) :
    Inv topicPrefix issues (earlier ++ [event]) t := by
  cases steps hstep with
  | connect =>
    exact {
      subscriptions := by
        have hone : ([Event.connect].filter (·.isConnect)).length = 1 := rfl
        rw [List.filter_append, List.length_append, hone, ← Nat.add_assoc, List.replicate_succ']
        exact congrArg (· ++ [getCommandSubscriptionPattern topicPrefix]) h.subscriptions
      tasks := by
        rw [List.filterMap_append]
        exact h.tasks.trans (List.append_nil _).symm
      executed := by
        rw [List.filterMap_append]
        exact h.executed.trans (congrArg _ (List.append_nil _).symm)
      fits := fun i task htask => (h.fits i task htask).later (List.subset_append_left _ _)
      once := h.once
      published := h.published }
  | @ignored topic payload retain hcommand =>
    have hnone : [Event.message topic payload retain].filterMap (arrival topicPrefix) = [] := by
      rw [List.filterMap_cons, arrival, hcommand]
      rfl
    exact {
      subscriptions := by
        rw [List.filter_append, List.length_append]
        exact h.subscriptions
      tasks := by rw [List.filterMap_append, hnone, List.append_nil, h.tasks]
      executed := by rw [List.filterMap_append, hnone, List.append_nil, h.executed]
      fits := fun i task htask => (h.fits i task htask).later (List.subset_append_left _ _)
      once := h.once
      published := h.published }
  | taken hcommand => exact h.onMessage hcommand
  | moves hget hmoves => exact h.moves hget hmoves

theorem Inv.run (h : Inv topicPrefix issues earlier s) (hrun : run topicPrefix issues s events = some t) :
    Inv topicPrefix issues (earlier ++ events) t := by
  induction events generalizing earlier s with
  | nil =>
    cases hrun
    rwa [List.append_nil]
  | cons event events ih =>
    obtain ⟨middle, hstep, hrun⟩ := Transition.run_cons_eq_some.mp hrun
    have hrest := ih (h.step hstep) hrun
    rwa [List.append_assoc, List.singleton_append] at hrest

theorem one_answer (topicPrefix : Option JsString) (issues : Parsed → JsString) (events : List Event) (s : State)
    (hrun : run topicPrefix issues (State.start topicPrefix) events = some s) :
    s.subscriptions =
      List.replicate (1 + (events.filter (·.isConnect)).length) (getCommandSubscriptionPattern topicPrefix) ∧
    s.tasks.map (fun task => (task.deviceId, task.payload)) = events.filterMap (arrival topicPrefix) ∧
    s.executed = (events.filterMap (arrival topicPrefix)).filterMap (requested issues) ∧
    (s.published.map (·.task)).Nodup ∧
    (∀ p ∈ s.published, ∃ task, s.tasks[p.task]? = some task ∧
      p.topic = getResponseTopic topicPrefix task.deviceId ∧ Answers issues events p.task task.payload p.result ∧
      ∀ payload retain, step topicPrefix issues s (.message p.topic payload retain) = some s) ∧
    ((∀ task ∈ s.tasks, ∃ result, task.stage = .finished result) →
      ∀ i task, s.tasks[i]? = some task → ((∃ p ∈ s.published, p.task = i) ↔ task.payload ≠ [])) := by
  have h : Inv topicPrefix issues events s := inv_start.run hrun
  refine ⟨h.subscriptions, h.tasks, h.executed, h.once, fun p hp => ?_, fun hdone i task hget => ?_⟩
  · obtain ⟨task, hget, htopic, hstage⟩ := h.published p hp
    refine ⟨task, hget, htopic, ?_, fun payload retain => ?_⟩
    · cases h.fits p.task task hget with
      | executing => cases hstage
      | responding => cases hstage
      | silent => cases hstage
      | answered hanswers =>
        cases hstage
        exact hanswers
    · rw [htopic]
      exact step_published .response (fun heq => by cases heq) task.deviceId
  · obtain ⟨result, hresult⟩ := hdone task (List.mem_of_getElem? hget)
    cases h.fits i task hget with
    | executing => cases hresult
    | responding => cases hresult
    | silent hfree =>
      constructor
      · rintro ⟨p, hp, htask⟩
        exact absurd (List.mem_map.mpr ⟨p, hp, htask⟩) hfree
      · exact fun hne => absurd rfl hne
    | answered hanswers hmem => exact ⟨fun _ => hanswers.payload_ne_nil, fun _ => ⟨_, hmem, rfl⟩⟩

def commandTopic : JsString := utf16 "miot-bridge/device/7/command"

def busyEvents : List Event :=
  [.message commandTopic (Utf8.encode (utf16 "\x7b\"command\":\"fan:on\",\"operation\":\"GET_PROPERTY\"\x7d")) false,
    .message commandTopic (Utf8.encode (utf16 "\x7b\"command\":\"fan:go\",\"operation\":\"ACTION\"\x7d")) false,
    .message commandTopic (Utf8.encode (utf16 "\x7b\x7d")) true,
    .message commandTopic (Utf8.encode (utf16 "on")) false,
    .executed 1 (.error (utf16 "offline")), .connect, .publish 1, .publish 2, .executed 0 (.ok (some (utf16 "1"))),
    .publish 0]

theorem one_answer_busy : ∃ s, run none (fun _ => []) (State.start none) busyEvents = some s ∧
    s.published.map (fun p => (p.task, p.result)) =
      [(1, utf16 "error: offline"), (2, INVALID_JSON), (0, utf16 "1")] ∧
    (s.published.map (·.task)).Nodup ∧
    ∀ p ∈ s.published, ∀ payload retain, step none (fun _ => []) s (.message p.topic payload retain) = some s := by
  have hpublished : (run none (fun _ => []) (State.start none) busyEvents).map
      (fun s => s.published.map fun p => (p.task, p.result)) =
        some [(1, utf16 "error: offline"), (2, INVALID_JSON), (0, utf16 "1")] := by decide +kernel
  obtain ⟨s, hrun, hresults⟩ := Option.map_eq_some_iff.mp hpublished
  obtain ⟨-, -, -, honce, hanswers, -⟩ := one_answer none (fun _ => []) busyEvents s hrun
  refine ⟨s, hrun, hresults, honce, fun p hp => ?_⟩
  obtain ⟨-, -, -, -, hback⟩ := hanswers p hp
  exact hback

end HomelabApps.MiotBridge.MqttListener
