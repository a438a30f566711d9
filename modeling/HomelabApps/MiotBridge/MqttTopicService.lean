import HomelabApps.Library.JsonAccess
import HomelabApps.Library.Numerals
import HomelabApps.Library.Topics
import Mathlib.Data.List.DropRight

namespace HomelabApps.MiotBridge.Topics

open HomelabApps.Library.Utf16
open HomelabApps.Library.Topics
open HomelabApps.Library.Json (isDigit natOf)

def MAX_SAFE_INTEGER : Nat := 2 ^ 53 - 1

def getPrefix (topicPrefix : Option JsString) : JsString :=
  match topicPrefix with
  | some raw => raw.rdropWhile (· = SLASH)
  | none => []

def build (topicPrefix : Option JsString) (path : JsString) : JsString :=
  if getPrefix topicPrefix = [] then path else getPrefix topicPrefix ++ SLASH :: path

def getCommandSubscriptionPattern (topicPrefix : Option JsString) : JsString :=
  build topicPrefix (utf16 "miot-bridge/device/+/command")

def getCommandTopic (topicPrefix : Option JsString) (miotDeviceId : Nat) : JsString :=
  build topicPrefix (utf16 "miot-bridge/device/" ++ numeral miotDeviceId ++ utf16 "/command")

def getResponseTopic (topicPrefix : Option JsString) (miotDeviceId : Nat) : JsString :=
  build topicPrefix (utf16 "miot-bridge/device/" ++ numeral miotDeviceId ++ utf16 "/response")

def getNotificationsTopic (topicPrefix : Option JsString) (miotDeviceId : Nat) : JsString :=
  build topicPrefix (utf16 "miot-bridge/device/" ++ numeral miotDeviceId ++ utf16 "/notifications")

def extractDeviceIdFromCommandTopic (topicPrefix : Option JsString) (topic : JsString) : Option Nat :=
  let before := if getPrefix topicPrefix = [] then utf16 "miot-bridge/device/"
    else getPrefix topicPrefix ++ utf16 "/miot-bridge/device/"
  let after := utf16 "/command"
  if !before.isPrefixOf topic || !after.isSuffixOf topic then none
  else
    let idStr := (topic.take (topic.length - after.length)).drop before.length
    if idStr = [] || !idStr.all isDigit then none
    else
      let id := natOf idStr
      if id ≤ MAX_SAFE_INTEGER then some id else none

inductive TopicKind
  | command | response | notifications
  deriving DecidableEq, Repr

def TopicKind.topic (kind : TopicKind) (topicPrefix : Option JsString) (miotDeviceId : Nat) : JsString :=
  match kind with
  | .command => getCommandTopic topicPrefix miotDeviceId
  | .response => getResponseTopic topicPrefix miotDeviceId
  | .notifications => getNotificationsTopic topicPrefix miotDeviceId

def TopicKind.word : TopicKind → JsString
  | .command => utf16 "command"
  | .response => utf16 "response"
  | .notifications => utf16 "notifications"

variable {topicPrefix : Option JsString} {topic before after idStr root : JsString} {id : Nat} {kind : TopicKind}

def devices (topicPrefix : Option JsString) : JsString := build topicPrefix (utf16 "miot-bridge/device")

theorem build_append (path rest : JsString) : build topicPrefix (path ++ rest) = build topicPrefix path ++ rest := by
  rw [build, build]
  split
  · rfl
  · simp

theorem devices_slash : utf16 "miot-bridge/device/" = utf16 "miot-bridge/device" ++ [SLASH] := by decide

theorem pattern_eq : getCommandSubscriptionPattern topicPrefix =
    devices topicPrefix ++ SLASH :: PLUS :: SLASH :: utf16 "command" := by
  have hpath : utf16 "miot-bridge/device/+/command" =
      utf16 "miot-bridge/device" ++ SLASH :: PLUS :: SLASH :: utf16 "command" := by decide
  rw [devices, ← build_append, getCommandSubscriptionPattern, hpath]

theorem topic_eq : kind.topic topicPrefix id = devices topicPrefix ++ SLASH :: (numeral id ++ SLASH :: kind.word) := by
  have hword : ∀ word : JsString, utf16 "miot-bridge/device/" ++ numeral id ++ SLASH :: word =
      utf16 "miot-bridge/device" ++ SLASH :: (numeral id ++ SLASH :: word) := by
    intro word
    rw [devices_slash, List.append_assoc, List.append_assoc, List.singleton_append]
  have hcommand : utf16 "/command" = SLASH :: utf16 "command" := by decide
  have hresponse : utf16 "/response" = SLASH :: utf16 "response" := by decide
  have hnotifications : utf16 "/notifications" = SLASH :: utf16 "notifications" := by decide
  rw [devices, ← build_append, ← hword]
  cases kind with
  | command => rw [TopicKind.topic, getCommandTopic, hcommand, TopicKind.word]
  | response => rw [TopicKind.topic, getResponseTopic, hresponse, TopicKind.word]
  | notifications => rw [TopicKind.topic, getNotificationsTopic, hnotifications, TopicKind.word]

theorem extract_eq : extractDeviceIdFromCommandTopic topicPrefix topic =
    let before := devices topicPrefix ++ [SLASH]
    let after := SLASH :: utf16 "command"
    if !before.isPrefixOf topic || !after.isSuffixOf topic then none
    else
      let idStr := (topic.take (topic.length - after.length)).drop before.length
      if idStr = [] || !idStr.all isDigit then none
      else if natOf idStr ≤ MAX_SAFE_INTEGER then some (natOf idStr) else none := by
  have hbefore : (if getPrefix topicPrefix = [] then utf16 "miot-bridge/device/"
      else getPrefix topicPrefix ++ utf16 "/miot-bridge/device/") = devices topicPrefix ++ [SLASH] := by
    have hslash : utf16 "/miot-bridge/device/" = SLASH :: utf16 "miot-bridge/device/" := by decide
    rw [devices, ← build_append, ← devices_slash, build, hslash]
  have hcommand : utf16 "/command" = SLASH :: utf16 "command" := by decide
  rw [extractDeviceIdFromCommandTopic, hbefore, hcommand]

theorem eq_of_slice (hbefore : before <+: topic) (hafter : after <:+ topic)
    (hslice : (topic.take (topic.length - after.length)).drop before.length = idStr) (hne : idStr ≠ []) :
    topic = before ++ (idStr ++ after) := by
  obtain ⟨start, rfl⟩ := hafter
  have hstart : (start ++ after).take ((start ++ after).length - after.length) = start := by
    rw [List.length_append, Nat.add_sub_cancel, List.take_left]
  rw [hstart] at hslice
  have hlength : before.length ≤ start.length := by
    apply Nat.le_of_not_lt
    intro hshort
    exact hne (hslice ▸ List.drop_eq_nil_of_le (Nat.le_of_lt hshort))
  obtain ⟨rest, rfl⟩ := List.prefix_of_prefix_length_le hbefore (List.prefix_append start after) hlength
  rw [List.drop_left] at hslice
  rw [hslice, List.append_assoc]

theorem slice_eq : ((before ++ (idStr ++ after)).take ((before ++ (idStr ++ after)).length - after.length)).drop
    before.length = idStr := by
  have hlength : (before ++ (idStr ++ after)).length - after.length = (before ++ idStr).length := by
    simp only [List.length_append]
    omega
  rw [hlength, ← List.append_assoc, List.take_left, List.drop_left]

theorem natOf_numeral (n : Nat) : natOf (numeral n) = n := by
  have hdigits : ∀ (digits : List Char) (m : Nat), (∀ c ∈ digits, c.toNat < 0x80) →
      (digits.map fun c => c.toNat.toUInt16).foldl (fun n u => 10 * n + (u.toNat - 0x30)) m =
        Nat.ofDigitChars 10 digits m := by
    intro digits
    induction digits with
    | nil => exact fun m _ => rfl
    | cons c digits ih =>
      intro m hascii
      rw [List.forall_mem_cons] at hascii
      have hunit : c.toNat.toUInt16.toNat = c.toNat := by
        rw [Nat.toUInt16_eq, UInt16.toNat_ofNat']
        omega
      rw [List.map_cons, List.foldl_cons, ih _ hascii.2, hunit]
      rfl
  rw [natOf, numeral, utf16_ascii (ascii_toString n), hdigits _ _ (ascii_toString n), Nat.toString_eq_repr,
    Nat.toList_repr, Nat.ofDigitChars_ten_toDigits]

theorem isDigit_of_mem_numeral {u : UInt16} (h : u ∈ numeral id) : isDigit u = true := by
  obtain ⟨hlower, hupper⟩ := digit_of_mem_numeral h
  simp only [isDigit, Bool.and_eq_true, decide_eq_true_eq, UInt16.le_iff_toNat_le, UInt16.reduceToNat]
  exact ⟨hlower, hupper⟩

theorem extract_topic (h : id ≤ MAX_SAFE_INTEGER) :
    extractDeviceIdFromCommandTopic topicPrefix (getCommandTopic topicPrefix id) = some id := by
  have htopic : getCommandTopic topicPrefix id =
      (devices topicPrefix ++ [SLASH]) ++ (numeral id ++ SLASH :: utf16 "command") := by
    rw [List.append_assoc]
    exact @topic_eq topicPrefix id .command
  have hbefore : (devices topicPrefix ++ [SLASH]).isPrefixOf (getCommandTopic topicPrefix id) = true :=
    List.isPrefixOf_iff_prefix.mpr ⟨_, htopic.symm⟩
  have hafter : (SLASH :: utf16 "command").isSuffixOf (getCommandTopic topicPrefix id) = true :=
    List.isSuffixOf_iff_suffix.mpr ⟨_, by rw [htopic, ← List.append_assoc]⟩
  have hdigits : (numeral id).all isDigit = true := List.all_eq_true.mpr fun u hu => isDigit_of_mem_numeral hu
  rw [extract_eq]
  dsimp only
  rw [hbefore, hafter, Bool.not_true, Bool.or_false, if_neg Bool.false_ne_true, htopic, slice_eq, hdigits, natOf_numeral,
    if_pos h, if_neg (by simp [numeral_ne_nil])]

theorem topic_of_extract (h : extractDeviceIdFromCommandTopic topicPrefix topic = some id) :
    ∃ idStr, topic = devices topicPrefix ++ SLASH :: (idStr ++ SLASH :: utf16 "command") ∧
      ∀ u ∈ idStr, isDigit u = true := by
  rw [extract_eq] at h
  dsimp only at h
  split at h
  · cases h
  · rename_i hends
    split at h
    · cases h
    · rename_i hdigits
      rw [Bool.not_eq_true, Bool.or_eq_false_iff, Bool.not_eq_false', Bool.not_eq_false'] at hends
      rw [Bool.not_eq_true, Bool.or_eq_false_iff, decide_eq_false_iff_not, Bool.not_eq_false'] at hdigits
      refine ⟨_, ?_, List.all_eq_true.mp hdigits.2⟩
      have htopic := eq_of_slice (List.isPrefixOf_iff_prefix.mp hends.1) (List.isSuffixOf_iff_suffix.mp hends.2) rfl
        hdigits.1
      rwa [List.append_assoc, List.singleton_append] at htopic

theorem notMem_devices {u : UInt16} (hconfigured : ∀ raw ∈ topicPrefix, u ∉ raw) (hslash : u ≠ SLASH)
    (hpath : u ∉ utf16 "miot-bridge/device") : u ∉ devices topicPrefix := by
  have hroot : u ∉ getPrefix topicPrefix := by
    cases topicPrefix with
    | none => exact List.not_mem_nil
    | some raw => exact fun h => hconfigured raw rfl ((List.rdropWhile_prefix _ raw).subset h)
  rw [devices, build]
  split
  · exact hpath
  · rw [List.mem_append, List.mem_cons]
    exact fun h => h.elim hroot fun h => h.elim hslash hpath

theorem TopicKind.word_injective : Function.Injective TopicKind.word := by
  intro kind kind' h
  cases kind <;> cases kind' <;> first | rfl | exact absurd h (by decide)

theorem slash_notMem_numeral : SLASH ∉ numeral id := by
  intro h
  exact absurd (digit_of_mem_numeral h).1 (by decide)

theorem topics_round_trip (topicPrefix : Option JsString) (hplain : ∀ raw ∈ topicPrefix, PLUS ∉ raw ∧ HASH ∉ raw) :
    (∀ id ≤ MAX_SAFE_INTEGER,
      extractDeviceIdFromCommandTopic topicPrefix (getCommandTopic topicPrefix id) = some id) ∧
    (∀ topic id, extractDeviceIdFromCommandTopic topicPrefix topic = some id →
      matchesFilter (getCommandSubscriptionPattern topicPrefix) topic = true) ∧
    ∀ (kind kind' : TopicKind) (id id' : Nat), kind.topic topicPrefix id = kind'.topic topicPrefix id' →
      kind = kind' ∧ id = id' := by
  refine ⟨fun id h => extract_topic h, fun topic id h => ?_, fun kind kind' id id' h => ?_⟩
  · obtain ⟨idStr, rfl, hdigits⟩ := topic_of_extract h
    rw [pattern_eq]
    apply matchesFilter_level
    · exact notMem_devices (fun raw hraw => (hplain raw hraw).1) (by decide) (by decide)
    · exact notMem_devices (fun raw hraw => (hplain raw hraw).2) (by decide) (by decide)
    · exact fun hslash => absurd (hdigits SLASH hslash) (by decide)
  · rw [topic_eq, topic_eq, List.append_cancel_left_eq, List.cons.injEq] at h
    obtain ⟨hid, hword⟩ := append_separator_inj slash_notMem_numeral slash_notMem_numeral h.2
    exact ⟨TopicKind.word_injective hword, numeral_injective hid⟩

theorem topics_round_trip_office :
    extractDeviceIdFromCommandTopic (some (utf16 "home/office//")) (getCommandTopic (some (utf16 "home/office//")) 442) =
      some 442 ∧
    matchesFilter (getCommandSubscriptionPattern (some (utf16 "home/office//")))
      (utf16 "home/office/miot-bridge/device/007/command") = true := by
  obtain ⟨hback, hfilter, -⟩ := topics_round_trip (some (utf16 "home/office//")) fun raw hraw => by
    obtain rfl := Option.some.inj hraw
    decide
  exact ⟨hback 442 (by decide), hfilter _ 7 (by decide)⟩

end HomelabApps.MiotBridge.Topics
