import HomelabApps.Library.KeyedMap
import HomelabApps.Library.Numerals
import HomelabApps.MiotBridge.DeviceCommand

namespace HomelabApps.MiotBridge.SpecMapper

open HomelabApps.Library
open HomelabApps.Library.Utf16
open HomelabApps.MiotBridge.DeviceCommand (PropertyAccess)

inductive MiotSpecV2PropertyAccess
  | read | write | notify
  deriving DecidableEq, Repr

inductive MiotSpecV2PropertyFormat
  | string | uint8 | uint16 | uint32 | int8 | int16 | int32 | int64 | bool | float
  deriving DecidableEq, Repr

structure Member where
  iid : Nat
  type : JsString
  deriving DecidableEq, Repr

variable {Number : Type}

structure MiotSpecV2PropertyValue (Number : Type) where
  value : Number
  description : JsString
  deriving DecidableEq

structure MiotSpecV2ServiceProperty (Number : Type) extends Member where
  format : MiotSpecV2PropertyFormat
  access : List MiotSpecV2PropertyAccess
  valueList : Option (List (MiotSpecV2PropertyValue Number))
  valueRange : Option (List Number)
  deriving DecidableEq

structure MiotSpecV2ServiceAction extends Member where
  inputs : List Nat
  deriving DecidableEq

structure MiotSpecV2Service (Number : Type) extends Member where
  properties : Option (List (MiotSpecV2ServiceProperty Number))
  actions : Option (List MiotSpecV2ServiceAction)
  deriving DecidableEq

structure MiotSpecV2 (Number : Type) where
  type : JsString
  description : JsString
  services : List (MiotSpecV2Service Number)

structure ModelPropertyOverride (Number : Type) where
  key : JsString
  siid : Nat
  piid : Nat
  access : List PropertyAccess
  values : List (MiotSpecV2PropertyValue Number)

inductive MiotPropertySource
  | spec | override
  deriving DecidableEq, Repr

structure MiotPropertyValue (Number : Type) where
  value : Number
  description : JsString
  deriving DecidableEq

structure MiotProperty (Number : Type) where
  source : MiotPropertySource
  siid : Nat
  piid : Nat
  access : List PropertyAccess
  values : List (MiotPropertyValue Number)
  format : Option MiotSpecV2PropertyFormat
  valueRange : Option (List Number)
  deriving DecidableEq

structure MiotAction where
  siid : Nat
  aiid : Nat
  inputs : List JsString
  deriving DecidableEq, Repr

structure SimplifiedMiotSpec (Number : Type) where
  name : JsString
  type : JsString
  properties : KeyedMap JsString (MiotProperty Number)
  actions : KeyedMap JsString MiotAction

def COLON : UInt16 := 0x3A

def HYPHEN : UInt16 := 0x2D

/-- `type.split(':')[3]`. -/
def typeName (type : JsString) : Option JsString := (type.splitOn COLON)[3]?

def shown (name : Option JsString) : JsString := name.getD (utf16 "undefined")

/-- The key among members of these types: a repeated type gets the iid. -/
def keyResolver (types : List (Option JsString)) (member : Member) : Option JsString :=
  if ((KeyedMap.counts types).get (typeName member.type)).getD 0 > 1 then
    some (shown (typeName member.type) ++ HYPHEN :: numeral member.iid)
  else typeName member.type

def buildServiceKeyResolver (data : MiotSpecV2 Number) (svc : MiotSpecV2Service Number) : Option JsString :=
  keyResolver (data.services.map fun svc => typeName svc.type) svc.toMember

def buildMemberKeyResolver (members : Option (List Member)) (member : Member) : Option JsString :=
  keyResolver ((members.getD []).map fun member => typeName member.type) member

def keyOf (serviceKey memberKey : Option JsString) : JsString := shown serviceKey ++ COLON :: shown memberKey

def MiotSpecV2Service.propertyMembers (svc : MiotSpecV2Service Number) : Option (List Member) :=
  svc.properties.map fun properties => properties.map (·.toMember)

def MiotSpecV2Service.actionMembers (svc : MiotSpecV2Service Number) : Option (List Member) :=
  svc.actions.map fun actions => actions.map (·.toMember)

def propertyKeyOf (data : MiotSpecV2 Number) (svc : MiotSpecV2Service Number) (p : Member) : JsString :=
  keyOf (buildServiceKeyResolver data svc) (buildMemberKeyResolver svc.propertyMembers p)

def actionKeyOf (data : MiotSpecV2 Number) (svc : MiotSpecV2Service Number) (a : Member) : JsString :=
  keyOf (buildServiceKeyResolver data svc) (buildMemberKeyResolver svc.actionMembers a)

/-- The class the mapper extends: `mapArray` runs its callback once for each element, in an order of its
own, and `mapEnum` finds a member of another enumeration. -/
structure MappingUtils where
  order : ∀ {α : Type}, List α → List α
  once : ∀ {α : Type} (l : List α), (order l).Perm l
  mapEnum : MiotSpecV2PropertyAccess → PropertyAccess

variable (utils : MappingUtils)

def mapProperty (svc : MiotSpecV2Service Number) (p : MiotSpecV2ServiceProperty Number) : MiotProperty Number where
  source := .spec
  siid := svc.iid
  piid := p.iid
  access := p.access.map utils.mapEnum
  values := (p.valueList.map fun values => values.map fun v => ⟨v.value, v.description⟩).getD []
  format := some p.format
  valueRange := p.valueRange

def missingInput (a : MiotSpecV2ServiceAction) (svc : MiotSpecV2Service Number) (piid : Nat) : JsString :=
  utf16 "Action '" ++ a.type ++ utf16 "' references non-existent input property with PIID " ++ numeral piid ++
    utf16 " in service '" ++ svc.type ++ utf16 "'."

def mapInput (data : MiotSpecV2 Number) (svc : MiotSpecV2Service Number) (a : MiotSpecV2ServiceAction) (piid : Nat) :
    Except JsString JsString :=
  match (svc.properties.getD []).find? (·.iid = piid) with
  | none => .error (missingInput a svc piid)
  | some inputProperty => .ok (propertyKeyOf data svc inputProperty.toMember)

def mapAction (data : MiotSpecV2 Number) (svc : MiotSpecV2Service Number) (a : MiotSpecV2ServiceAction) :
    Except JsString MiotAction :=
  (a.inputs.mapM (mapInput data svc a)).map fun inputs => ⟨svc.iid, a.iid, inputs⟩

def MiotSpecV2.properties (data : MiotSpecV2 Number) :
    List (MiotSpecV2Service Number × MiotSpecV2ServiceProperty Number) :=
  data.services.flatMap fun svc => (svc.properties.getD []).map (svc, ·)

def MiotSpecV2.actions (data : MiotSpecV2 Number) : List (MiotSpecV2Service Number × MiotSpecV2ServiceAction) :=
  data.services.flatMap fun svc => (svc.actions.getD []).map (svc, ·)

def setProperty (data : MiotSpecV2 Number) (x : MiotSpecV2Service Number × MiotSpecV2ServiceProperty Number) :
    JsString × MiotProperty Number :=
  (propertyKeyOf data x.1 x.2.toMember, mapProperty utils x.1 x.2)

def setAction (data : MiotSpecV2 Number) (x : MiotSpecV2Service Number × MiotSpecV2ServiceAction) :
    Except JsString (JsString × MiotAction) :=
  (mapAction data x.1 x.2).map fun action => (actionKeyOf data x.1 x.2.toMember, action)

def applyOverride (data : MiotSpecV2 Number) (properties : KeyedMap JsString (MiotProperty Number))
    (override : ModelPropertyOverride Number) : KeyedMap JsString (MiotProperty Number) :=
  match data.services.find? (·.iid = override.siid) with
  | none => properties
  | some svc => properties.set (keyOf (buildServiceKeyResolver data svc) (some override.key)) {
      source := .override
      siid := override.siid
      piid := override.piid
      access := override.access
      values := override.values.map fun v => ⟨v.value, v.description⟩
      format := none
      valueRange := none }

def map (data : MiotSpecV2 Number) (overrides : List (ModelPropertyOverride Number)) :
    Except JsString (SimplifiedMiotSpec Number) :=
  ((utils.order data.actions).mapM (setAction data)).map fun actions => {
    name := data.description
    type := data.type
    properties := overrides.foldl (applyOverride data)
      (KeyedMap.setAll [] ((utils.order data.properties).map (setProperty utils data)))
    actions := KeyedMap.setAll [] actions }

end HomelabApps.MiotBridge.SpecMapper
