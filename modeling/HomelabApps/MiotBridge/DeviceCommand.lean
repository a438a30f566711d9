import Mathlib.Data.List.Basic

universe u

namespace HomelabApps.MiotBridge.DeviceCommand

inductive PropertyAccess
  | read | write | notify
  deriving DecidableEq, Repr

/-- `reject` is what `validatePropertyValue` throws for a value, `none` when it is allowed. -/
structure MiotProperty (Value : Type u) where
  siid : Nat
  piid : Nat
  access : List PropertyAccess
  reject : Option Value → Option String

structure MiotAction where
  siid : Nat
  aiid : Nat

structure SimplifiedMiotSpec (Value : Type u) where
  properties : String → Option (MiotProperty Value)
  actions : String → Option MiotAction

structure Device (Value : Type u) where
  id : String
  deviceId : Nat
  spec : SimplifiedMiotSpec Value

inductive DeviceCommandOperation
  | getProperty | setProperty | action
  deriving DecidableEq, Repr

structure DeviceCommandRequest (Value : Type u) where
  deviceId : Nat
  command : String
  operation : DeviceCommandOperation
  value : Option Value

inductive ResolvedCommand (Value : Type u)
  | getProperty (property : MiotProperty Value)
  | setProperty (property : MiotProperty Value)
  | action (action : MiotAction)

variable {Value : Type u}

def propertyNotFound (command : String) (deviceId : Nat) : String :=
  "Property '" ++ command ++ "' not found in spec for device " ++ toString deviceId ++ "."

def resolveCommand (request : DeviceCommandRequest Value) (deviceId : Nat)
    (spec : SimplifiedMiotSpec Value) : Except String (ResolvedCommand Value) :=
  match request.operation with
  | .getProperty =>
    match spec.properties request.command with
    | none => .error (propertyNotFound request.command deviceId)
    | some property =>
      if .read ∉ property.access ∧ .notify ∉ property.access then
        .error ("Property '" ++ request.command ++ "' does not support read or notify access.")
      else .ok (.getProperty property)
  | .setProperty =>
    match spec.properties request.command with
    | none => .error (propertyNotFound request.command deviceId)
    | some property =>
      if .write ∉ property.access then
        .error ("Property '" ++ request.command ++ "' does not support write access.")
      else
        match property.reject request.value with
        | some error => .error error
        | none => .ok (.setProperty property)
  | .action =>
    match spec.actions request.command with
    | none =>
      .error ("Action '" ++ request.command ++ "' not found in spec for device " ++ toString deviceId ++ ".")
    | some action => .ok (.action action)

structure PropertyResult (Value : Type u) where
  siid : Nat
  piid : Nat
  value : Option Value
  code : Int
  deriving DecidableEq, Repr

structure KeyedPropertyResult (Value : Type u) where
  key : String
  siid : Nat
  piid : Nat
  value : Option Value
  code : Int
  deriving DecidableEq, Repr

def MIOT_PROPERTY_CODE_MISSING : Int := -1

/-- The keys of a bulk read that the spec resolves, in order. -/
def resolvedProperties (spec : SimplifiedMiotSpec Value) (keys : List String) :
    List (String × MiotProperty Value) :=
  keys.filterMap fun key => (spec.properties key).map (key, ·)

def keyedResult (rawResults : List (PropertyResult Value)) (key : String)
    (property : MiotProperty Value) : KeyedPropertyResult Value :=
  let r := rawResults.find? fun x => x.siid = property.siid ∧ x.piid = property.piid
  { key := key
    siid := property.siid
    piid := property.piid
    value := r.bind (·.value)
    code := (r.map (·.code)).getD MIOT_PROPERTY_CODE_MISSING }

def keyedResults (spec : SimplifiedMiotSpec Value) (keys : List String)
    (rawResults : List (PropertyResult Value)) : List (KeyedPropertyResult Value) :=
  (resolvedProperties spec keys).map fun p => keyedResult rawResults p.1 p.2

theorem keyedResults_functional {spec : SimplifiedMiotSpec Value} {keys : List String}
    {raw : List (PropertyResult Value)} {r r' : KeyedPropertyResult Value}
    (hr : r ∈ keyedResults spec keys raw) (hr' : r' ∈ keyedResults spec keys raw)
    (hkey : r.key = r'.key) : r = r' := by
  have hspec : ∀ x ∈ keyedResults spec keys raw,
      ∃ property, spec.properties x.key = some property ∧ x = keyedResult raw x.key property := by
    intro x hx
    obtain ⟨⟨key, property⟩, hp, rfl⟩ := List.mem_map.mp hx
    obtain ⟨key', -, hkey'⟩ := List.mem_filterMap.mp hp
    obtain ⟨property', hprop, heq⟩ := Option.map_eq_some_iff.mp hkey'
    cases heq
    exact ⟨property, hprop, rfl⟩
  obtain ⟨p, hp, heq⟩ := hspec r hr
  obtain ⟨p', hp', heq'⟩ := hspec r' hr'
  rw [← hkey] at hp' heq'
  obtain rfl := Option.some.inj (hp.symm.trans hp')
  exact heq.trans heq'.symm

end HomelabApps.MiotBridge.DeviceCommand
