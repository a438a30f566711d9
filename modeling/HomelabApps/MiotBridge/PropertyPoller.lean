import HomelabApps.MiotBridge.DeviceCommand

/-! `DevicePropertyPollerService`: the subscriptions it polls, the back-off of failing devices, and
the memory of last values by which it tells a change. -/

universe u

namespace HomelabApps.MiotBridge.PropertyPoller

open HomelabApps.MiotBridge.DeviceCommand (KeyedPropertyResult)

structure Config where
  enabled : Bool
  dispatchOnChange : Bool
  maxErrorCount : Nat
  errorSkipCycles : Nat

structure PropertyChangeEvent (Value : Type u) where
  deviceId : String
  miotDeviceId : Nat
  property : String
  oldValue : Option Value
  newValue : Option Value
  timestamp : Nat
  deriving DecidableEq, Repr

structure PollTarget where
  deviceId : String
  properties : List String
  deriving DecidableEq, Repr

/-- `subscriptions` keeps the order of insertion; a missing entry of the other maps reads as
`undefined` or `0`, as it does in the source. -/
structure Poller (Value : Type u) where
  subscriptions : List PollTarget := []
  lastValues : String → Option Value := fun _ => none
  errorCounts : String → Nat := fun _ => 0
  skipCycles : String → Nat := fun _ => 0

variable {Value : Type u}

def cacheKey (deviceId key : String) : String := deviceId ++ ":" ++ key

def Poller.isSubscribed (p : Poller Value) (deviceId key : String) : Bool :=
  match p.subscriptions.find? (·.deviceId = deviceId) with
  | some target => target.properties.contains key
  | none => false

def Poller.remembered (p : Poller Value) (deviceId key : String) : Option Value :=
  p.lastValues (cacheKey deviceId key)

def Poller.dueDevices (p : Poller Value) : Poller Value × List PollTarget :=
  ({ p with
      skipCycles := fun deviceId =>
        if p.subscriptions.any (·.deviceId = deviceId) then p.skipCycles deviceId - 1
        else p.skipCycles deviceId },
    p.subscriptions.filter fun target => p.skipCycles target.deviceId = 0)

def Poller.remember (p : Poller Value) (deviceId key : String) (value : Option Value) :
    Poller Value :=
  { p with lastValues := Function.update p.lastValues (cacheKey deviceId key) value }

/-- One turn of the loop of `readDevice`: the poller afterwards and the event it emits. -/
def Poller.readResult [DecidableEq Value] (c : Config) (deviceId : String) (miotDeviceId now : Nat)
    (p : Poller Value) (r : KeyedPropertyResult Value) :
    Poller Value × Option (PropertyChangeEvent Value) :=
  if r.code ≠ 0 then (p, none)
  else if ¬p.isSubscribed deviceId r.key then (p, none)
  else
    let oldValue := p.remembered deviceId r.key
    let hasChanged := oldValue ≠ r.value
    if hasChanged ∨ ¬c.dispatchOnChange then
      (p.remember deviceId r.key r.value,
        some
          { deviceId := deviceId
            miotDeviceId := miotDeviceId
            property := r.key
            oldValue := if hasChanged then oldValue else r.value
            newValue := r.value
            timestamp := now })
    else (p, none)

def Poller.recover (p : Poller Value) (deviceId : String) : Poller Value :=
  { p with errorCounts := Function.update p.errorCounts deviceId 0 }

def Poller.fault (c : Config) (p : Poller Value) (deviceId : String) : Poller Value :=
  let count := p.errorCounts deviceId + 1
  if c.maxErrorCount ≤ count then
    { p with
      errorCounts := Function.update p.errorCounts deviceId 0
      skipCycles := Function.update p.skipCycles deviceId c.errorSkipCycles }
  else { p with errorCounts := Function.update p.errorCounts deviceId count }

theorem cacheKey_injective {deviceId key key' : String}
    (h : cacheKey deviceId key = cacheKey deviceId key') : key = key' :=
  (String.append_right_inj (deviceId ++ ":")).mp h

inductive Reading (c : Config) (deviceId : String) (miotDeviceId now : Nat) (p : Poller Value)
    (r : KeyedPropertyResult Value) :
    Poller Value × Option (PropertyChangeEvent Value) → Prop
  | skipped : ¬(r.code = 0 ∧ p.isSubscribed deviceId r.key) →
    Reading c deviceId miotDeviceId now p r (p, none)
  | unchanged : r.code = 0 ∧ p.isSubscribed deviceId r.key → c.dispatchOnChange →
    p.remembered deviceId r.key = r.value → Reading c deviceId miotDeviceId now p r (p, none)
  | emitted (oldValue : Option Value) : r.code = 0 ∧ p.isSubscribed deviceId r.key →
    Reading c deviceId miotDeviceId now p r
      (p.remember deviceId r.key r.value,
        some ⟨deviceId, miotDeviceId, r.key, oldValue, r.value, now⟩)

theorem readResult_cases [DecidableEq Value] (c : Config) (deviceId : String)
    (miotDeviceId now : Nat) (p : Poller Value) (r : KeyedPropertyResult Value) :
    Reading c deviceId miotDeviceId now p r (p.readResult c deviceId miotDeviceId now r) := by
  unfold Poller.readResult
  split
  · rename_i hcode
    exact .skipped fun h => hcode h.1
  · rename_i hcode
    split
    · rename_i hsub
      exact .skipped fun h => hsub h.2
    · rename_i hsub
      have hread : r.code = 0 ∧ p.isSubscribed deviceId r.key :=
        ⟨Decidable.not_not.mp hcode, Decidable.not_not.mp hsub⟩
      dsimp only
      split
      · exact .emitted _ hread
      · rename_i hsame
        rw [not_or, Decidable.not_not, Decidable.not_not] at hsame
        exact .unchanged hread hsame.2 hsame.1

theorem remembered_remember (p : Poller Value) (deviceId key key' : String) (value : Option Value) :
    (p.remember deviceId key value).remembered deviceId key' =
      if key' = key then value else p.remembered deviceId key' := by
  simp only [Poller.remember, Poller.remembered, Function.update_apply]
  by_cases h : key' = key
  · simp [h]
  · have hne : cacheKey deviceId key' ≠ cacheKey deviceId key := fun hkey => h (cacheKey_injective hkey)
    simp [h, hne]

end HomelabApps.MiotBridge.PropertyPoller
