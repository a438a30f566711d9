import HomelabApps.Library.JsonRoundTrip
import HomelabApps.Library.Table
import HomelabApps.MiotBridge.MqttListenerService

namespace HomelabApps.MiotBridge.MqttListener

open HomelabApps.Library
open HomelabApps.Library.Json (Parsed Value parse_text parsedEntries_eq)
open HomelabApps.Library.Utf16
open HomelabApps.Library.Utf8 (decode_encode encode wellFormed_text)
open HomelabApps.MiotBridge.DeviceCommand (DeviceCommandOperation)
open HomelabApps.MiotBridge.Topics

variable {topicPrefix : Option JsString} {issues : Parsed → JsString} {command : JsString}
  {operation : DeviceCommandOperation} {value : Option Value} {entries : List (JsString × Value)} {key : JsString}

def operationText : DeviceCommandOperation → JsString
  | .getProperty => utf16 "GET_PROPERTY"
  | .setProperty => utf16 "SET_PROPERTY"
  | .action => utf16 "ACTION"

def fields (command : JsString) (operation : DeviceCommandOperation) (value : Option Value) : List (JsString × Value) :=
  [(COMMAND, .string command), (OPERATION, .string (operationText operation))] ++ value.toList.map (VALUE, ·)

theorem operation?_operationText : operation? (operationText operation) = some operation := by
  cases operation with
  | getProperty => decide
  | setProperty => decide
  | action => decide

theorem nodup_fields : ((fields command operation value).map Prod.fst).Nodup := by
  cases value with
  | none => exact show [COMMAND, OPERATION].Nodup by decide
  | some v => exact show [COMMAND, OPERATION, VALUE].Nodup by decide

theorem isJson_fields (h : ∀ v ∈ value, v.isJson = true) : ∀ e ∈ fields command operation value, e.2.isJson = true := by
  intro e he
  rw [fields, List.mem_append, List.mem_cons, List.mem_singleton] at he
  obtain (rfl | rfl) | he := he
  · rfl
  · rfl
  · obtain ⟨v, hv, rfl⟩ := List.mem_map.mp he
    exact h v (Option.mem_toList.mp hv)

theorem get_parsed (hperm : entries.Perm (fields command operation value)) :
    (Value.object entries).parsed.get key = ((fields command operation value).find? (·.1 = key)).map (·.2.parsed) := by
  have hback : entries.reverse.Perm (fields command operation value) := (List.reverse_perm entries).trans hperm
  have hreverse : entries.reverse.find? (·.1 = key) = (fields command operation value).find? (·.1 = key) :=
    Table.find?_perm ((hback.map Prod.fst).nodup_iff.mpr nodup_fields) hback
  rw [Value.parsed, parsedEntries_eq, Parsed.get, ← List.map_reverse, List.find?_map, Option.map_map, ← hreverse]
  rfl

theorem validate_parsed (hcommand : command ≠ []) (hperm : entries.Perm (fields command operation value)) :
    validate (Value.object entries).parsed = some ⟨command, operation, value.map Value.parsed⟩ := by
  have hkeys : ((Json.parsedEntries entries).all fun e => e.1 = COMMAND || e.1 = OPERATION || e.1 = VALUE) = true := by
    rw [parsedEntries_eq, List.all_map, List.all_eq_true]
    intro e he
    have he := hperm.mem_iff.mp he
    rw [fields, List.mem_append, List.mem_cons, List.mem_singleton] at he
    obtain (rfl | rfl) | he := he
    · rfl
    · rfl
    · obtain ⟨v, hv, rfl⟩ := List.mem_map.mp he
      rfl
  have hget : ∀ key, (Parsed.object (Json.parsedEntries entries)).get key =
      ((fields command operation value).find? (·.1 = key)).map (·.2.parsed) := fun key => get_parsed hperm
  have hvalue : ((fields command operation value).find? (·.1 = VALUE)).map (·.2.parsed) = value.map Value.parsed := by
    cases value with
    | none => rfl
    | some v => rfl
  rw [Value.parsed, validate, if_pos hkeys, hget, hget, hget, hvalue]
  show (if command = [] then none else (operation? (operationText operation)).map fun operation =>
    (⟨command, operation, value.map Value.parsed⟩ : MqttCommandRequest)) = _
  rw [if_neg hcommand, operation?_operationText]
  rfl

theorem receive_sent (hcommand : command ≠ []) (hvalue : ∀ v ∈ value, v.isJson = true)
    (hperm : entries.Perm (fields command operation value)) :
    receive issues (encode (Value.object entries).text) = .request ⟨command, operation, value.map Value.parsed⟩ := by
  have hjson : (Value.object entries).isJson = true := by
    rw [Value.isJson, Json.isJsonEntries_iff]
    exact fun e he => isJson_fields hvalue e (hperm.mem_iff.mp he)
  have hdecode := @decode_encode (Value.object entries).text
  rw [wellFormed_text] at hdecode
  have hsome : encode (Value.object entries).text ≠ [] := by
    intro hnil
    rw [hnil] at hdecode
    exact Json.text_ne_nil hjson hdecode.symm
  rw [receive, if_neg hsome, hdecode, parse_text hjson]
  dsimp only
  rw [validate_parsed hcommand hperm]

theorem sent_executed (topicPrefix : Option JsString) (issues : Parsed → JsString) (s : State) (deviceId : Nat)
    (hdevice : deviceId ≤ MAX_SAFE_INTEGER) (command : JsString) (hcommand : command ≠ [])
    (operation : DeviceCommandOperation) (value : Option Value) (hvalue : ∀ v ∈ value, v.isJson = true)
    (entries : List (JsString × Value)) (hperm : entries.Perm (fields command operation value)) :
    ∃ t, step topicPrefix issues s
        (.message (getCommandTopic topicPrefix deviceId) (encode (Value.object entries).text) false) = some t ∧
      t.executed = s.executed ++ [(deviceId, ⟨command, operation, value.map Value.parsed⟩)] ∧
      t.published = s.published ∧ t.subscriptions = s.subscriptions ∧
      t.tasks = s.tasks ++ [⟨deviceId, encode (Value.object entries).text,
        .executing ⟨command, operation, value.map Value.parsed⟩⟩] := by
  have hreceive := @receive_sent issues command operation value entries hcommand hvalue hperm
  have hcommandOf : commandOf topicPrefix (getCommandTopic topicPrefix deviceId) false = some deviceId := by
    rw [commandOf, extract_topic hdevice]
    rfl
  refine ⟨_, by rw [step, hcommandOf], ?_⟩
  simp only [State.onMessage, hreceive]
  exact ⟨trivial, trivial, trivial, trivial⟩

def speed : Value := .number (some (Json.numberText 42))

theorem sent_executed_speed : ∃ t, step none (fun _ => []) {} (.message (getCommandTopic none 7)
      (encode (Value.object [(VALUE, speed), (OPERATION, .string (utf16 "SET_PROPERTY")),
        (COMMAND, .string (utf16 "fan:speed"))]).text) false) = some t ∧
    t.executed = [(7, ⟨utf16 "fan:speed", .setProperty, some speed.parsed⟩)] := by
  obtain ⟨t, hstep, hexecuted, -⟩ := sent_executed none (fun _ => []) {} 7 (by decide) (utf16 "fan:speed") (by decide)
    .setProperty (some speed) (fun v hv => by
      cases hv
      rw [speed, Value.isJson, Option.any_some]
      exact Json.validNumber_numberText)
    [(VALUE, speed), (OPERATION, .string (utf16 "SET_PROPERTY")), (COMMAND, .string (utf16 "fan:speed"))]
    (List.reverse_perm (fields (utf16 "fan:speed") .setProperty (some speed)))
  exact ⟨t, hstep, hexecuted⟩

end HomelabApps.MiotBridge.MqttListener
