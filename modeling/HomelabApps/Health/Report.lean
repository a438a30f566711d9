import HomelabApps.Library.Json
import HomelabApps.Library.KeyedMap
import HomelabApps.Library.Seek

namespace HomelabApps.Health

open HomelabApps.Library
open HomelabApps.Library.Utf16
open HomelabApps.Library.Json (Value)

inductive HealthStatus
  | pass | warn | fail
  deriving DecidableEq, Repr

def HealthStatus.value : HealthStatus → JsString
  | .pass => utf16 "pass"
  | .warn => utf16 "warn"
  | .fail => utf16 "fail"

structure HealthCheck where
  name : JsString
  critical : Bool
  deriving DecidableEq

/-- A result as it is kept, which need not be one of the three states; `none` is `undefined`. -/
structure HealthCheckResult where
  status : Option Value
  detail : Option Value
  observedValue : Option Value

structure EvaluatedCheck where
  check : HealthCheck
  result : HealthCheckResult

def HealthCheckResult.hasStatus (result : HealthCheckResult) (status : HealthStatus) : Bool :=
  match result.status with
  | some (.string text) => text = status.value
  | _ => false

def isReady (evaluated : List EvaluatedCheck) : Bool :=
  evaluated.all fun e => !e.check.critical || !e.result.hasStatus .fail

def rollUp (evaluated : List EvaluatedCheck) : HealthStatus :=
  if !isReady evaluated then .fail
  else if evaluated.any fun e => e.result.hasStatus .warn || e.result.hasStatus .fail then .warn
  else .pass

abbrev Checks := KeyedMap JsString HealthCheckResult

structure HealthReport where
  status : HealthStatus
  checks : Option Checks

/-- What an empty object has from `Object.prototype`. -/
def OBJECT_PROTOTYPE : List JsString :=
  [utf16 "__proto__", utf16 "__defineGetter__", utf16 "__defineSetter__", utf16 "__lookupGetter__",
    utf16 "__lookupSetter__", utf16 "constructor", utf16 "hasOwnProperty", utf16 "isPrototypeOf",
    utf16 "propertyIsEnumerable", utf16 "toLocaleString", utf16 "toString", utf16 "valueOf"]

def Checks.has (checks : Checks) (key : JsString) : Bool :=
  OBJECT_PROTOTYPE.contains key || (checks.map (·.1)).contains key

/-- `checks[key] = result`; the setter of `__proto__` makes no property. -/
def Checks.assign (checks : Checks) (key : JsString) (result : HealthCheckResult) : Checks :=
  if key = utf16 "__proto__" then checks else checks.set key result

/-- `none` where the key is still taken after `turns` turns. -/
def freeKey (turns : Nat) (checks : Checks) (key : JsString) : Option JsString :=
  seek checks.has (· ++ utf16 "_") turns key

structure Breakdown where
  checks : Checks
  seen : KeyedMap JsString Nat

def Breakdown.add (turns : Nat) (breakdown : Breakdown) (e : EvaluatedCheck) : Option Breakdown :=
  let count := (breakdown.seen.get e.check.name).getD 0 + 1
  let key := if count = 1 then e.check.name else e.check.name ++ utf16 "#" ++ utf16 (toString count)
  (freeKey turns breakdown.checks key).map fun key => {
    checks := breakdown.checks.assign key e.result
    seen := breakdown.seen.set e.check.name count }

/-- `none` where the search for a key has not ended after `turns` turns. -/
def buildReport (turns : Nat) (evaluated : List EvaluatedCheck) (includeChecks : Bool) : Option HealthReport :=
  let status := rollUp evaluated
  if !includeChecks then some { status := status, checks := none }
  else (evaluated.foldlM (Breakdown.add turns) { checks := [], seen := [] }).map fun breakdown =>
    { status := status, checks := some breakdown.checks }

variable {turns : Nat} {key found : JsString} {checks : Checks} {evaluated : List EvaluatedCheck} {e : EvaluatedCheck}
  {breakdown : Breakdown}

theorem Checks.has_eq_true : checks.has key = true ↔ key ∈ OBJECT_PROTOTYPE ++ checks.map (·.1) := by
  rw [Checks.has, Bool.or_eq_true, List.contains_iff_mem, List.contains_iff_mem, List.mem_append]

theorem exists_freeKey (key : JsString) (h : OBJECT_PROTOTYPE.length + checks.length < turns) :
    ∃ found, freeKey turns checks key = some found := by
  have hsize : ∀ key : JsString, key.length < (key ++ utf16 "_").length := by
    intro key
    rw [List.length_append]
    exact Nat.lt_add_of_pos_right (by decide)
  have hturns : (OBJECT_PROTOTYPE ++ checks.map (·.1)).length < turns := by
    rwa [List.length_append, List.length_map]
  exact exists_seek hsize (fun key => Checks.has_eq_true.mp) hturns

theorem iterate_underscore (n : Nat) : ∀ key : JsString, key <+: (· ++ utf16 "_")^[n] key := by
  induction n with
  | zero => exact fun key => List.prefix_refl key
  | succ n ih =>
    intro key
    rw [Function.iterate_succ_apply']
    exact (ih key).trans (List.prefix_append _ _)

theorem freeKey_eq_some (h : freeKey turns checks key = some found) :
    found ∉ OBJECT_PROTOTYPE ∧ found ∉ checks.map (·.1) ∧ key <+: found := by
  obtain ⟨hfree, n, hfound, -⟩ := seek_eq_some h
  rw [Checks.has, Bool.or_eq_false_iff, List.contains_eq_mem, List.contains_eq_mem, decide_eq_false_iff_not,
    decide_eq_false_iff_not] at hfree
  exact ⟨hfree.1, hfree.2, hfound ▸ iterate_underscore n key⟩

structure Breakdown.Lists (breakdown : Breakdown) (evaluated : List EvaluatedCheck) : Prop where
  nodup : (breakdown.checks.map (·.1)).Nodup
  entries : List.Forall₂ (fun e entry => e.check.name <+: entry.1 ∧ entry.2 = e.result) evaluated breakdown.checks

theorem Breakdown.Lists.assign (h : breakdown.Lists evaluated) (hprototype : found ∉ OBJECT_PROTOTYPE)
    (hnew : found ∉ breakdown.checks.map (·.1)) (hname : e.check.name <+: found) (seen : KeyedMap JsString Nat) :
    Breakdown.Lists { checks := breakdown.checks.assign found e.result, seen := seen } (evaluated ++ [e]) := by
  have hproto : found ≠ utf16 "__proto__" := by
    rintro rfl
    exact hprototype List.mem_cons_self
  have hassign : breakdown.checks.assign found e.result = breakdown.checks ++ [(found, e.result)] := by
    rw [Checks.assign, if_neg hproto, KeyedMap.set_of_notMem hnew]
  constructor
  · dsimp only
    rw [hassign, List.map_append]
    refine List.nodup_append.mpr ⟨h.nodup, List.nodup_singleton _, fun a ha b hb heq => hnew ?_⟩
    rwa [heq, List.mem_singleton.mp hb] at ha
  · dsimp only
    rw [hassign]
    exact List.rel_append h.entries (.cons ⟨hname, rfl⟩ .nil)

theorem Breakdown.Lists.add (e : EvaluatedCheck) (h : breakdown.Lists evaluated)
    (hturns : OBJECT_PROTOTYPE.length + evaluated.length < turns) :
    ∃ next, breakdown.add turns e = some next ∧ next.Lists (evaluated ++ [e]) := by
  rw [h.entries.length_eq] at hturns
  have hnumbered : ∀ count : Nat, e.check.name <+:
      if count = 1 then e.check.name else e.check.name ++ utf16 "#" ++ utf16 (toString count) := by
    intro count
    split
    · exact List.prefix_refl _
    · rw [List.append_assoc]
      exact List.prefix_append _ _
  rw [Breakdown.add]
  generalize (breakdown.seen.get e.check.name).getD 0 + 1 = count
  obtain ⟨found, hfound⟩ := exists_freeKey
    (if count = 1 then e.check.name else e.check.name ++ utf16 "#" ++ utf16 (toString count)) hturns
  obtain ⟨hprototype, hnew, hname⟩ := freeKey_eq_some hfound
  rw [hfound, Option.map_some]
  exact ⟨_, rfl, h.assign hprototype hnew ((hnumbered count).trans hname) _⟩

theorem Breakdown.Lists.addAll (rest : List EvaluatedCheck) (h : breakdown.Lists evaluated)
    (hturns : OBJECT_PROTOTYPE.length + (evaluated ++ rest).length ≤ turns) :
    ∃ next, rest.foldlM (Breakdown.add turns) breakdown = some next ∧ next.Lists (evaluated ++ rest) := by
  induction rest generalizing breakdown evaluated with
  | nil => exact ⟨breakdown, rfl, by rwa [List.append_nil]⟩
  | cons e rest ih =>
    rw [List.length_append, List.length_cons] at hturns
    obtain ⟨next, hnext, hlists⟩ := Breakdown.Lists.add e h (Nat.lt_of_lt_of_le (by omega) hturns)
    rw [List.append_cons]
    rw [List.foldlM_cons, hnext]
    apply ih hlists
    simp only [List.length_append, List.length_cons, List.length_nil]
    omega

theorem buildReport_hides_no_check (evaluated : List EvaluatedCheck) (more : Nat) :
    ∃ checks, buildReport (OBJECT_PROTOTYPE.length + evaluated.length + more) evaluated true =
        some { status := rollUp evaluated, checks := some checks } ∧
      (checks.map (·.1)).Nodup ∧
      List.Forall₂ (fun e entry => e.check.name <+: entry.1 ∧ entry.2 = e.result) evaluated checks := by
  have hempty : Breakdown.Lists { checks := [], seen := [] } [] := ⟨List.nodup_nil, .nil⟩
  obtain ⟨breakdown, hfold, hlists⟩ := Breakdown.Lists.addAll evaluated hempty
    (Nat.le_add_right (OBJECT_PROTOTYPE.length + evaluated.length) more)
  refine ⟨breakdown.checks, ?_, hlists.nodup, hlists.entries⟩
  rw [buildReport, hfold]
  rfl

example : ((buildReport 20
    ([utf16 "a", utf16 "a#2", utf16 "a", utf16 "constructor"].map fun name =>
      { check := { name := name, critical := true }, result := { status := none, detail := none, observedValue := none } })
    true).bind (·.checks)).map (·.map (·.1)) =
      some [utf16 "a", utf16 "a#2", utf16 "a#2_", utf16 "constructor_"] := by decide

end HomelabApps.Health
