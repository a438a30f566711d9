import HomelabApps.MiotBridge.DeviceState

universe u

namespace HomelabApps.MiotBridge.DeviceState

open HomelabApps.Library
open HomelabApps.MiotBridge.DeviceCommand
open HomelabApps.MiotBridge.NotificationDispatch
open HomelabApps.MiotBridge.PropertyPoller (PollTarget)

variable {Value : Type u} {c : Config Value} {s t : State Value}
  {device : Device Value} {r r' : KeyedPropertyResult Value} {now : Nat} {k : Nat × String}
  {o : Observation Value} {e : Event Value} {es : List (Event Value)}

/-- Once the queue has drained, a subscribed property that was read has been published last as
what its latest read returned, or as a value set after that read. -/
def Converged (c : Config Value) (s : State Value) : Prop :=
  s.dispatch.queue = [] → ∀ device ∈ c.devices, ∀ property,
    s.poller.isSubscribed device.id property →
    ∀ pre value post, s.observed = pre ++ ⟨true, (device.deviceId, property), value⟩ :: post →
      (∀ o ∈ post, o.key = (device.deviceId, property) → o.read = false) →
      s.dispatch.lastPublished (device.deviceId, property) = value ∨
        ∃ o ∈ post, o.key = (device.deviceId, property) ∧
          s.dispatch.lastPublished (device.deviceId, property) = o.value

def State.lastObserved (s : State Value) (k : Nat × String) : Option (Observation Value) :=
  s.observed.findRev? (·.key = k)

structure Current (s : State Value) : Prop where
  onePerKey : OnePerKey s.dispatch.queue
  newest : ∀ k o, s.lastObserved k = some o → s.dispatch.newest k = o.value

def Fresh (c : Config Value) (device : Device Value) (s : State Value)
    (r : KeyedPropertyResult Value) : Prop :=
  r.code = 0 → s.poller.isSubscribed device.id r.key → c.polling.dispatchOnChange →
    s.poller.remembered device.id r.key = r.value →
    s.dispatch.newest (device.deviceId, r.key) = r.value

def NoStaleMemory (c : Config Value) (s : State Value) : Event Value → Prop
  | .resume n _ =>
    match s.exchanges[n]?.join with
    | some (.poll device keys [] results) =>
      ∀ r ∈ keyedResults device.spec keys results, Fresh c device s r
    | _ => True
  | _ => True

instance [DecidableEq Value] : Decidable (Fresh c device s r) := by
  unfold Fresh; infer_instance

instance [DecidableEq Value] (s : State Value) (e : Event Value) :
    Decidable (NoStaleMemory c s e) := by
  unfold NoStaleMemory
  split
  · split <;> infer_instance
  · infer_instance

theorem lastObserved_observe : (s.observe o).lastObserved k =
    if o.key = k then some o else s.lastObserved k := by
  simp only [State.lastObserved, State.observe, List.findRev?_eq_find?_reverse, List.reverse_append,
    List.reverse_singleton, List.singleton_append, List.find?_cons]
  by_cases h : o.key = k <;> simp [h]

theorem Current.congr (h : Current s) (hd : t.dispatch = s.dispatch) (ho : t.observed = s.observed) :
    Current t where
  onePerKey := hd ▸ h.onePerKey
  newest k o hl := by
    rw [hd]
    exact h.newest k o (by rwa [State.lastObserved, ho] at hl)

theorem Current.observe (h : Current s) (ho : s.dispatch.newest o.key = o.value) :
    Current (s.observe o) where
  onePerKey := h.onePerKey
  newest k o' hl := by
    rw [lastObserved_observe] at hl
    split at hl
    · rename_i hk
      obtain rfl := Option.some.inj hl
      exact hk ▸ ho
    · exact h.newest k o' hl

theorem newest_stateReceive (c : Config Value) (now : Nat) (k : Nat × String) (h : Current s)
    (hen : c.notifications.notificationsEnabled)
    (d : Nat) (p : String) (v : Option Value) : (s.receive c now d p v).dispatch.newest k =
      if (d, p) = k then v else s.dispatch.newest k :=
  newest_receive ⟨d, p, v⟩ h.onePerKey hen

theorem Current.deliver (h : Current s) (hen : c.notifications.notificationsEnabled)
    (d : Nat) (p : String) (v : Option Value) (read : Bool) :
    Current ((s.receive c now d p v).observe ⟨read, (d, p), v⟩) where
  onePerKey := onePerKey_receive h.onePerKey
  newest k o hl := by
    rw [lastObserved_observe] at hl
    refine (newest_stateReceive c now k h hen d p v).trans ?_
    split at hl
    · rename_i hk
      obtain rfl := Option.some.inj hl
      exact if_pos hk
    · rename_i hk
      rw [if_neg hk]
      exact h.newest k o hl

theorem Current.readResult [DecidableEq Value] (h : Current s)
    (hen : c.notifications.notificationsEnabled) (hfresh : Fresh c device s r) :
    Current (s.readResult c device now r) := by
  have hread := PropertyPoller.readResult_cases c.polling device.id device.deviceId now s.poller r
  unfold State.readResult
  generalize s.poller.readResult c.polling device.id device.deviceId now r = q at hread ⊢
  cases hread with
  | skipped hskip =>
    dsimp only
    rw [if_neg hskip]
    exact h.congr rfl rfl
  | unchanged hr hchange hsame =>
    dsimp only
    rw [if_pos hr]
    exact (h.congr rfl rfl : Current { s with poller := s.poller }).observe
      (hfresh hr.1 hr.2 hchange hsame)
  | emitted oldValue hr =>
    dsimp only
    rw [if_pos hr]
    exact (h.congr rfl rfl :
      Current { s with poller := s.poller.remember device.id r.key r.value }).deliver hen _ _ _ _

theorem Fresh.readResult [DecidableEq Value] (hr' : Fresh c device s r') (h : Current s)
    (hen : c.notifications.notificationsEnabled) (hkey : r.key = r'.key → r = r') :
    Fresh c device (s.readResult c device now r) r' := by
  have hread := PropertyPoller.readResult_cases c.polling device.id device.deviceId now s.poller r
  unfold State.readResult
  generalize s.poller.readResult c.polling device.id device.deviceId now r = q at hread ⊢
  cases hread with
  | skipped hskip =>
    dsimp only
    rw [if_neg hskip]
    exact hr'
  | unchanged hread hchange hsame =>
    dsimp only
    rw [if_pos hread]
    exact hr'
  | emitted oldValue hread =>
    dsimp only
    rw [if_pos hread]
    intro hcode hsub hchange hmem
    have hnew := newest_stateReceive c now (device.deviceId, r'.key)
      (h.congr rfl rfl : Current { s with poller := s.poller.remember device.id r.key r.value })
      hen device.deviceId r.key r.value
    refine hnew.trans ?_
    by_cases hk : r.key = r'.key
    · rw [if_pos (by rw [hk]), hkey hk]
    · rw [if_neg (by simpa using hk)]
      refine hr' hcode hsub hchange ?_
      have := PropertyPoller.remembered_remember s.poller device.id r.key r'.key r.value
      rw [if_neg (Ne.symm hk)] at this
      exact this.symm.trans hmem

theorem Current.readResults [DecidableEq Value] {results : List (KeyedPropertyResult Value)}
    (h : Current s) (hen : c.notifications.notificationsEnabled)
    (hfresh : ∀ r ∈ results, Fresh c device s r)
    (hkey : ∀ r ∈ results, ∀ r' ∈ results, r.key = r'.key → r = r') :
    Current (results.foldl (State.readResult c device now) s) := by
  induction results generalizing s with
  | nil => exact h
  | cons r rs ih =>
    have hr := hfresh r List.mem_cons_self
    refine ih (h.readResult hen hr) (fun r' hr' => ?_) fun a ha b hb =>
      hkey a (List.mem_cons_of_mem _ ha) b (List.mem_cons_of_mem _ hb)
    exact (hfresh r' (List.mem_cons_of_mem _ hr')).readResult h hen
      (hkey r List.mem_cons_self r' (List.mem_cons_of_mem _ hr'))

theorem Current.readDevice [DecidableEq Value] {results : List (KeyedPropertyResult Value)}
    (h : Current s) (hen : c.notifications.notificationsEnabled)
    (hfresh : ∀ r ∈ results, Fresh c device s r)
    (hkey : ∀ r ∈ results, ∀ r' ∈ results, r.key = r'.key → r = r') :
    Current (s.readDevice c device now results) := by
  unfold State.readDevice
  dsimp only
  split
  · exact (h.readResults hen hfresh hkey).congr rfl rfl
  · exact h.congr rfl rfl

theorem Current.resume [DecidableEq Value] {x : Exchange Value} (h : Current s)
    (hen : c.notifications.notificationsEnabled)
    (hfresh : ∀ device keys results, x = .poll device keys [] results →
      ∀ r ∈ keyedResults device.spec keys results, Fresh c device s r)
    (hx : s.resume c now x = some t) : Current t := by
  unfold State.resume at hx
  split at hx
  · rename_i device keys results
    cases hx
    exact h.readDevice hen (hfresh device keys results rfl)
      fun r hr r' hr' hkey => keyedResults_functional hr hr' hkey
  · cases hx
  · cases hx
  · cases hx
    split
    · exact h
    · exact h.deliver hen _ _ _ _
  · cases hx
  · cases hx
    split
    · exact h
    · exact h.deliver hen _ _ _ _

theorem current_answer {x : Exchange Value} {n : Nat} {code : Option Int} (h : Current s)
    (hx : s.answer n code x = some t) : Current t := by
  unfold State.answer at hx
  split at hx
  · cases hx
  · cases hx; exact h.congr rfl rfl
  · cases hx; exact h.congr rfl rfl
  · cases hx
  · cases hx
    split <;> exact h.congr rfl rfl
  · cases hx

theorem current_fail {x : Exchange Value} (h : Current s) : Current (s.fail c x) := by
  unfold State.fail
  split
  · exact h.congr rfl rfl
  · exact h

theorem current_poll (h : Current s) (hp : s.poll c = some t) : Current t := by
  unfold State.poll at hp
  split at hp
  · cases hp
  · split at hp
    · cases hp
    · split at hp <;> (cases hp; exact h.congr rfl rfl)

theorem current_command {request : DeviceCommandRequest Value} (h : Current s) :
    Current (s.command c request) := by
  unfold State.command
  split
  · exact h
  · split
    · exact h
    · exact h.congr rfl rfl
    · exact h.congr rfl rfl
    · exact h

theorem current_step [DecidableEq Value] (hen : c.notifications.notificationsEnabled)
    (h : Current s) (hs : NoStaleMemory c s e) (hstep : step c s e = some t) : Current t := by
  cases e with
  | change => cases hstep; exact h.congr rfl rfl
  | tick =>
    simp only [step] at hstep
    split at hstep
    · cases hstep; exact h.congr rfl rfl
    · cases hstep
  | poll => exact current_poll h hstep
  | command request => cases hstep; exact current_command h
  | answer n code =>
    obtain ⟨x, -, hx⟩ := Option.bind_eq_some_iff.mp hstep
    exact current_answer h hx
  | fail n =>
    obtain ⟨x, -, rfl⟩ := Option.map_eq_some_iff.mp hstep
    exact current_fail (h.congr rfl rfl)
  | resume n now =>
    obtain ⟨x, hx, hres⟩ := Option.bind_eq_some_iff.mp hstep
    refine (h.congr rfl rfl : Current (s.put n none)).resume hen ?_ hres
    rintro device keys results rfl
    have hfresh : ∀ r ∈ keyedResults device.spec keys results, Fresh c device s r := by
      simpa [NoStaleMemory, hx] using hs
    exact hfresh
  | publish now =>
    obtain ⟨d, hd, rfl⟩ := Option.map_eq_some_iff.mp hstep
    have hk := keeps_fire h.onePerKey hd
    exact ⟨hk.onePerKey, fun k o ho => (hk.newest k).trans (h.newest k o ho)⟩

theorem Current.converged (h : Current s) : Converged c s := by
  intro hq device _ property _ pre value post hobs hpost
  rw [← newest_drained hq]
  -- The latest observation is a set made after the read, or the read itself.
  have hlast : s.lastObserved (device.deviceId, property) =
      (post.findRev? (·.key = (device.deviceId, property))).or
        (some ⟨true, (device.deviceId, property), value⟩) := by
    simp [State.lastObserved, hobs, List.find?_append]
  cases hset : post.findRev? (·.key = (device.deviceId, property)) with
  | none => exact .inl (h.newest _ _ (by rw [hlast, hset, Option.none_or]))
  | some o =>
    rw [List.findRev?_eq_find?_reverse] at hset
    refine .inr ⟨o, ?_, ?_, h.newest _ _ ?_⟩
    · exact List.mem_reverse.mp (List.mem_of_find?_eq_some hset)
    · simpa using List.find?_some hset
    · rw [hlast, List.findRev?_eq_find?_reverse, hset, Option.some_or]

def initial (hardware : Nat → Nat → Nat → Option Value) (subscriptions : List PollTarget) :
    State Value :=
  { hardware := hardware, poller := { subscriptions := subscriptions } }

theorem published_state_converges [DecidableEq Value]
    (hardware : Nat → Nat → Nat → Option Value) (subscriptions : List PollTarget)
    (hen : c.notifications.notificationsEnabled)
    (hs : Transition.Along (step c) (NoStaleMemory c) (initial hardware subscriptions) es) :
    Transition.Always (step c) (Converged c) (initial hardware subscriptions) es := by
  have hinit : Current (initial hardware subscriptions) :=
    ⟨List.nodup_nil, fun k o h => by simp [State.lastObserved, initial] at h⟩
  exact (Transition.always_of_along (fun _ _ _ => current_step hen) hinit hs).mono
    fun _ h => h.converged

def fan : Device Nat where
  id := "d"
  deviceId := 1
  spec :=
    { properties := fun key =>
        if key = "fan:on" then some ⟨2, 1, [.read, .write, .notify], fun _ => none⟩ else none
      actions := fun _ => none }

def fanConfig : Config Nat where
  polling := ⟨true, true, 3, 20⟩
  notifications := ⟨true, some 3000⟩
  devices := [fan]

def fanOff : State Nat := initial (fun _ _ _ => some 0) [⟨"d", ["fan:on"]⟩]

theorem set_fan_converges :
    Transition.Always (step fanConfig) (Converged fanConfig) fanOff
      [.tick, .poll, .answer 0 (some 0), .resume 0 0,
        .command ⟨1, "fan:on", .setProperty, some 1⟩, .answer 1 (some 0), .resume 1 5000,
        .tick, .poll, .answer 2 (some 0), .resume 2 10000] :=
  published_state_converges _ _ rfl (by decide)

/-- A poll reads 0, a command sets 1, the device goes back to 0 by itself: the poll that reads the
0 says nothing, and the 1 stays published. -/
theorem set_fan_stays_published : ∃ t,
    Transition.run (step fanConfig) fanOff
      [.tick, .poll, .answer 0 (some 0), .resume 0 0,
        .command ⟨1, "fan:on", .setProperty, some 1⟩, .answer 1 (some 0), .resume 1 5000,
        .change 1 2 1 (some 0), .tick, .poll, .answer 2 (some 0), .resume 2 10000] = some t ∧
    ¬Converged fanConfig t := by
  refine ⟨_, rfl, fun h => ?_⟩
  have hread := h rfl fan List.mem_cons_self "fan:on" rfl
    [⟨true, (1, "fan:on"), some 0⟩, ⟨false, (1, "fan:on"), some 1⟩] (some 0) [] rfl (by simp)
  rcases hread with hpub | ⟨o, ho, -⟩
  · exact absurd hpub (by decide)
  · cases ho

end HomelabApps.MiotBridge.DeviceState
