import HomelabApps.Library.Utf16
import Mathlib.Data.List.Sort

/-! Values of the runtime as JSON sees them: which of them have a text, the text itself, and what
a `jsonb` column accepts and keeps. -/

namespace HomelabApps.Library.Json

open HomelabApps.Library.Utf16

abbrev NumberText :=
  { s : String // s ≠ "" ∧ s.toList.all fun c => c.isDigit || c = '-' || c = '+' || c = '.' || c = 'e' }

/-- A number is the text JSON gives it, none for one that is not finite; an object has its entries
in the order they are enumerated; `ancestor` is a reference back to a value that holds it. -/
inductive Value
  | null
  | bool (b : Bool)
  | number (text : Option NumberText)
  | string (s : JsString)
  | array (items : List Value)
  | object (entries : List (JsString × Value))
  | ancestor (depth : Nat)

mutual

def Value.acyclic : Value → Bool
  | .array items => acyclicItems items
  | .object entries => acyclicEntries entries
  | .ancestor _ => false
  | _ => true

def acyclicItems : List Value → Bool
  | [] => true
  | v :: vs => v.acyclic && acyclicItems vs

def acyclicEntries : List (JsString × Value) → Bool
  | [] => true
  | (_, v) :: es => v.acyclic && acyclicEntries es

end

mutual

def Value.all (p : JsString → Bool) : Value → Bool
  | .string s => p s
  | .array items => allItems p items
  | .object entries => allEntries p entries
  | _ => true

def allItems (p : JsString → Bool) : List Value → Bool
  | [] => true
  | v :: vs => v.all p && allItems p vs

def allEntries (p : JsString → Bool) : List (JsString × Value) → Bool
  | [] => true
  | (k, v) :: es => p k && v.all p && allEntries p es

end

def hexDigit (n : Nat) : UInt16 := if n < 10 then (0x30 + n).toUInt16 else (0x57 + n).toUInt16

def unicodeEscape (u : UInt16) : JsString :=
  let n := u.toNat
  [0x5C, 0x75, hexDigit (n / 0x1000), hexDigit (n / 0x100 % 0x10), hexDigit (n / 0x10 % 0x10),
    hexDigit (n % 0x10)]

def escapeUnit (u : UInt16) : JsString :=
  if u = 0x22 then [0x5C, 0x22]
  else if u = 0x5C then [0x5C, 0x5C]
  else if u = 0x8 then [0x5C, 0x62]
  else if u = 0x9 then [0x5C, 0x74]
  else if u = 0xA then [0x5C, 0x6E]
  else if u = 0xC then [0x5C, 0x66]
  else if u = 0xD then [0x5C, 0x72]
  else if u < 0x20 || isSurrogate u then unicodeEscape u
  else [u]

/-- A string's characters as JSON writes them; an unpaired surrogate is written as its escape. -/
def escape : JsString → JsString
  | [] => []
  | [u] => escapeUnit u
  | u :: v :: rest =>
    if isHigh u && isLow v then u :: v :: escape rest
    else escapeUnit u ++ escape (v :: rest)

def quote (s : JsString) : JsString := [0x22] ++ escape s ++ [0x22]

mutual

def Value.text : Value → JsString
  | .null => utf16 "null"
  | .bool b => utf16 (if b then "true" else "false")
  | .number none => utf16 "null"
  | .number (some text) => utf16 text.val
  | .string s => quote s
  | .array items => utf16 "[" ++ [0x2C].intercalate (textItems items) ++ utf16 "]"
  | .object entries => utf16 "\x7b" ++ [0x2C].intercalate (textEntries entries) ++ utf16 "\x7d"
  | .ancestor _ => []

def textItems : List Value → List JsString
  | [] => []
  | v :: vs => v.text :: textItems vs

def textEntries : List (JsString × Value) → List JsString
  | [] => []
  | (k, v) :: es => (quote k ++ [0x3A] ++ v.text) :: textEntries es

end

def stringify (v : Value) : Option JsString := if v.acyclic then some v.text else none

/-- A key that objects enumerate as a number, before all others. -/
def arrayIndex (key : JsString) : Option Nat :=
  let n := key.foldl (fun n u => 10 * n + (u.toNat - 0x30)) 0
  if key ≠ [] ∧ key.all (fun u => 0x30 ≤ u && u ≤ 0x39) ∧ (key.head? ≠ some 0x30 ∨ key.length = 1) ∧
      n < 0xFFFFFFFF then some n
  else none

def enumerate (entries : List (JsString × Value)) : List (JsString × Value) :=
  (entries.filter fun e => (arrayIndex e.1).isSome).insertionSort
      (fun a b => (arrayIndex a.1).getD 0 ≤ (arrayIndex b.1).getD 0) ++
    entries.filter fun e => (arrayIndex e.1).isNone

mutual

def Value.sorted (compare : JsString → JsString → Ordering) : Value → Value
  | .array items => .array (sortedItems compare items)
  | .object entries =>
    .object (enumerate ((sortedEntries compare entries).insertionSort
      fun a b => compare a.1 b.1 ≠ .gt))
  | v => v

def sortedItems (compare : JsString → JsString → Ordering) : List Value → List Value
  | [] => []
  | v :: vs => v.sorted compare :: sortedItems compare vs

def sortedEntries (compare : JsString → JsString → Ordering) :
    List (JsString × Value) → List (JsString × Value)
  | [] => []
  | (k, v) :: es => (k, v.sorted compare) :: sortedEntries compare es

end

def codePoints : JsString → List Nat
  | [] => []
  | [u] => [u.toNat]
  | u :: v :: rest =>
    if isHigh u && isLow v then
      (0x10000 + (u.toNat - 0xD800) * 0x400 + (v.toNat - 0xDC00)) :: codePoints rest
    else u.toNat :: codePoints (v :: rest)

def utf8Length (s : JsString) : Nat :=
  ((codePoints s).map fun n =>
    if n < 0x80 then 1 else if n < 0x800 then 2 else if n < 0x10000 then 3 else 4).sum

/-- The order of a `jsonb` object's keys: shorter first, then by bytes. -/
def jsonbKeyLe (a b : JsString) : Prop :=
  utf8Length a < utf8Length b ∨ utf8Length a = utf8Length b ∧ codePoints a ≤ codePoints b

instance (a b : JsString) : Decidable (jsonbKeyLe a b) := by
  unfold jsonbKeyLe; infer_instance

mutual

def Value.jsonb : Value → Value
  | .number none => .null
  | .array items => .array (jsonbItems items)
  | .object entries => .object ((jsonbEntries entries).insertionSort fun a b => jsonbKeyLe a.1 b.1)
  | v => v

def jsonbItems : List Value → List Value
  | [] => []
  | v :: vs => v.jsonb :: jsonbItems vs

def jsonbEntries : List (JsString × Value) → List (JsString × Value)
  | [] => []
  | (k, v) :: es => (k, v.jsonb) :: jsonbEntries es

end

/-- A `jsonb` column refuses the escapes of NUL and of unpaired surrogates. -/
def jsonbAccepts (v : Value) : Bool := v.all fun s => NUL ∉ s && isWellFormed s

variable {p : JsString → Bool} {es es' : List (JsString × Value)}

theorem allEntries_iff : allEntries p es ↔ ∀ e ∈ es, p e.1 ∧ e.2.all p := by
  induction es with
  | nil => simp [allEntries]
  | cons e es ih => simp [allEntries, ih, Bool.and_eq_true]

theorem acyclicEntries_iff : acyclicEntries es ↔ ∀ e ∈ es, e.2.acyclic := by
  induction es with
  | nil => simp [acyclicEntries]
  | cons e es ih => simp [acyclicEntries, ih, Bool.and_eq_true]

theorem allEntries_perm (h : es.Perm es') : allEntries p es = allEntries p es' := by
  rw [Bool.eq_iff_iff, allEntries_iff, allEntries_iff]
  simp only [h.mem_iff]

theorem acyclicEntries_perm (h : es.Perm es') : acyclicEntries es = acyclicEntries es' := by
  rw [Bool.eq_iff_iff, acyclicEntries_iff, acyclicEntries_iff]
  simp only [h.mem_iff]

theorem enumerate_perm : (enumerate es).Perm es := by
  unfold enumerate
  refine ((List.perm_insertionSort _ _).append_right _).trans ?_
  have h := List.filter_append_perm (fun e : JsString × Value => (arrayIndex e.1).isSome) es
  simpa [Option.not_isSome] using h

mutual

theorem Value.acyclic_jsonb : (v : Value) → v.jsonb.acyclic = v.acyclic
  | .null => rfl
  | .bool _ => rfl
  | .number none => rfl
  | .number (some _) => rfl
  | .string _ => rfl
  | .array items => by rw [Value.jsonb, Value.acyclic, Value.acyclic, acyclicItems_jsonb items]
  | .object entries => by
    rw [Value.jsonb, Value.acyclic, Value.acyclic, acyclicEntries_perm (List.perm_insertionSort _ _),
      acyclicEntries_jsonb entries]
  | .ancestor _ => rfl

theorem acyclicItems_jsonb : (vs : List Value) → acyclicItems (jsonbItems vs) = acyclicItems vs
  | [] => rfl
  | v :: vs => by
    rw [jsonbItems, acyclicItems, acyclicItems, Value.acyclic_jsonb v, acyclicItems_jsonb vs]

theorem acyclicEntries_jsonb :
    (es : List (JsString × Value)) → acyclicEntries (jsonbEntries es) = acyclicEntries es
  | [] => rfl
  | (k, v) :: es => by
    rw [jsonbEntries, acyclicEntries, acyclicEntries, Value.acyclic_jsonb v, acyclicEntries_jsonb es]

end

mutual

theorem Value.all_jsonb (p : JsString → Bool) : (v : Value) → v.jsonb.all p = v.all p
  | .null => rfl
  | .bool _ => rfl
  | .number none => rfl
  | .number (some _) => rfl
  | .string _ => rfl
  | .array items => by rw [Value.jsonb, Value.all, Value.all, allItems_jsonb p items]
  | .object entries => by
    rw [Value.jsonb, Value.all, Value.all, allEntries_perm (List.perm_insertionSort _ _),
      allEntries_jsonb p entries]
  | .ancestor _ => rfl

theorem allItems_jsonb (p : JsString → Bool) : (vs : List Value) → allItems p (jsonbItems vs) = allItems p vs
  | [] => rfl
  | v :: vs => by rw [jsonbItems, allItems, allItems, Value.all_jsonb p v, allItems_jsonb p vs]

theorem allEntries_jsonb (p : JsString → Bool) :
    (es : List (JsString × Value)) → allEntries p (jsonbEntries es) = allEntries p es
  | [] => rfl
  | (k, v) :: es => by
    rw [jsonbEntries, allEntries, allEntries, Value.all_jsonb p v, allEntries_jsonb p es]

end

mutual

theorem Value.acyclic_sorted (compare : JsString → JsString → Ordering) :
    (v : Value) → (v.sorted compare).acyclic = v.acyclic
  | .null => rfl
  | .bool _ => rfl
  | .number _ => rfl
  | .string _ => rfl
  | .array items => by rw [Value.sorted, Value.acyclic, Value.acyclic, acyclicItems_sorted compare items]
  | .object entries => by
    rw [Value.sorted, Value.acyclic, Value.acyclic, acyclicEntries_perm enumerate_perm,
      acyclicEntries_perm (List.perm_insertionSort _ _), acyclicEntries_sorted compare entries]
  | .ancestor _ => rfl

theorem acyclicItems_sorted (compare : JsString → JsString → Ordering) :
    (vs : List Value) → acyclicItems (sortedItems compare vs) = acyclicItems vs
  | [] => rfl
  | v :: vs => by
    rw [sortedItems, acyclicItems, acyclicItems, Value.acyclic_sorted compare v,
      acyclicItems_sorted compare vs]

theorem acyclicEntries_sorted (compare : JsString → JsString → Ordering) :
    (es : List (JsString × Value)) → acyclicEntries (sortedEntries compare es) = acyclicEntries es
  | [] => rfl
  | (k, v) :: es => by
    rw [sortedEntries, acyclicEntries, acyclicEntries, Value.acyclic_sorted compare v,
      acyclicEntries_sorted compare es]

end

mutual

theorem Value.all_sorted (compare : JsString → JsString → Ordering) (p : JsString → Bool) :
    (v : Value) → (v.sorted compare).all p = v.all p
  | .null => rfl
  | .bool _ => rfl
  | .number _ => rfl
  | .string _ => rfl
  | .array items => by rw [Value.sorted, Value.all, Value.all, allItems_sorted compare p items]
  | .object entries => by
    rw [Value.sorted, Value.all, Value.all, allEntries_perm enumerate_perm,
      allEntries_perm (List.perm_insertionSort _ _), allEntries_sorted compare p entries]
  | .ancestor _ => rfl

theorem allItems_sorted (compare : JsString → JsString → Ordering) (p : JsString → Bool) :
    (vs : List Value) → allItems p (sortedItems compare vs) = allItems p vs
  | [] => rfl
  | v :: vs => by
    rw [sortedItems, allItems, allItems, Value.all_sorted compare p v, allItems_sorted compare p vs]

theorem allEntries_sorted (compare : JsString → JsString → Ordering) (p : JsString → Bool) :
    (es : List (JsString × Value)) → allEntries p (sortedEntries compare es) = allEntries p es
  | [] => rfl
  | (k, v) :: es => by
    rw [sortedEntries, allEntries, allEntries, Value.all_sorted compare p v,
      allEntries_sorted compare p es]

end

mutual

theorem Value.all_and (p q : JsString → Bool) :
    (v : Value) → v.all (fun s => p s && q s) = (v.all p && v.all q)
  | .null => rfl
  | .bool _ => rfl
  | .number _ => rfl
  | .string _ => rfl
  | .array items => allItems_and p q items
  | .object entries => allEntries_and p q entries
  | .ancestor _ => rfl

theorem allItems_and (p q : JsString → Bool) :
    (vs : List Value) → allItems (fun s => p s && q s) vs = (allItems p vs && allItems q vs)
  | [] => rfl
  | v :: vs => by
    rw [allItems, allItems, allItems, Value.all_and p q v, allItems_and p q vs]
    ac_rfl

theorem allEntries_and (p q : JsString → Bool) : (es : List (JsString × Value)) →
    allEntries (fun s => p s && q s) es = (allEntries p es && allEntries q es)
  | [] => rfl
  | (k, v) :: es => by
    rw [allEntries, allEntries, allEntries, Value.all_and p q v, allEntries_and p q es]
    ac_rfl

end

end HomelabApps.Library.Json
