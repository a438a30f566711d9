import HomelabApps.KnowledgeBase.MetadataFilterService
import HomelabApps.Library.Jsonb
import HomelabApps.Library.Numerals

/-! `metadataFilterSql`: the clauses of a metadata filter, their parameters, and what they say of a document. -/

namespace HomelabApps.KnowledgeBase.Store

open HomelabApps.Library.Utf16 HomelabApps.Library.Json

def scalarForm (key value : JsString) : Value := .object [(key, .string value)]

def arrayForm (key value : JsString) : Value := .object [(key, .array [.string value])]

def placeholder (n : Nat) : JsString := utf16 "d.metadata @> $" ++ numeral n ++ utf16 "::jsonb"

def alternatives (firstIndex : Nat) (key : JsString) : List JsString → List JsString → List JsString × List JsString
  | values, [] => (values, [])
  | values, value :: accepted =>
    let values := values ++ [(scalarForm key value).text, (arrayForm key value).text]
    let scalar := firstIndex + values.length - 2
    let (values, rest) := alternatives firstIndex key values accepted
    (values, placeholder scalar :: placeholder (scalar + 1) :: rest)

def clauses (firstIndex : Nat) : List JsString → MetadataFilter → List JsString × List JsString
  | values, [] => (values, [])
  | values, (key, accepted) :: filter =>
    let (values, alternatives) := alternatives firstIndex key values accepted
    let (values, rest) := clauses firstIndex values filter
    (values, (utf16 " AND (" ++ (utf16 " OR ").intercalate alternatives ++ utf16 ")") :: rest)

structure FilterSql where
  sql : JsString
  values : List JsString

def metadataFilterSql (filter : MetadataFilter) (firstIndex : Nat) : FilterSql :=
  let (values, clauses) := clauses firstIndex [] filter
  { sql := clauses.flatten, values := values }

def numbering : Nat → MetadataFilter → List (List Nat)
  | _, [] => []
  | next, (_, accepted) :: filter =>
    List.range' next (2 * accepted.length) :: numbering (next + 2 * accepted.length) filter

def clauseText (numbers : List Nat) : JsString :=
  utf16 " AND (" ++ (utf16 " OR ").intercalate (numbers.map placeholder) ++ utf16 ")"

def forms (pair : JsString × JsString) : List Value := [scalarForm pair.1 pair.2, arrayForm pair.1 pair.2]

/-- Whether the metadata of a document satisfies clauses with these numbers, when the parameters are bound from
`firstIndex` on; none when the database refuses a parameter. -/
def satisfies (firstIndex : Nat) (values : List JsString) (clauses : List (List Nat)) (metadata : Parsed) :
    Option Bool := do
  let bound ← values.mapM castJsonb
  return clauses.all fun numbers => numbers.any fun n => bound[n - firstIndex]?.any (contains metadata)

variable {filter : MetadataFilter} {firstIndex next : Nat} {key value : JsString} {values accepted : List JsString}
  {metadata : Value}

theorem alternatives_eq : alternatives firstIndex key values accepted =
    (values ++ (accepted.flatMap fun value => forms (key, value)).map Value.text,
      (List.range' (firstIndex + values.length) (2 * accepted.length)).map placeholder) := by
  induction accepted generalizing values with
  | nil => simp [alternatives]
  | cons value accepted ih =>
    have hlength (texts : List JsString) (a b : JsString) :
        firstIndex + (texts ++ [a, b]).length = firstIndex + texts.length + 1 + 1 := by
      simp
      omega
    rw [alternatives, ih, hlength, List.length_cons, show 2 * (accepted.length + 1) = 2 * accepted.length + 1 + 1 by
      omega, List.range'_succ, List.range'_succ, List.flatMap_cons, List.map_append, ← List.append_assoc]
    rfl

theorem clauses_eq : clauses firstIndex values filter =
    (values ++ ((pairs filter).flatMap forms).map Value.text,
      (numbering (firstIndex + values.length) filter).map clauseText) := by
  induction filter generalizing values with
  | nil => simp [clauses, pairs, numbering]
  | cons entry filter ih =>
    have hpairs : (pairs (entry :: filter)).flatMap forms =
        (entry.2.flatMap fun value => forms (entry.1, value)) ++ (pairs filter).flatMap forms := by
      rw [pairs, List.flatMap_cons, List.flatMap_append, List.flatMap_map]
      rfl
    have hlength : firstIndex + (values ++ (entry.2.flatMap fun value => forms (entry.1, value)).map Value.text).length =
        firstIndex + values.length + 2 * entry.2.length := by
      simp [forms]
      omega
    rw [clauses, alternatives_eq]
    dsimp only
    rw [ih, hlength, hpairs, List.map_append, ← List.append_assoc]
    rfl

theorem length_pairs {entry : JsString × List JsString} :
    (pairs (entry :: filter)).length = entry.2.length + (pairs filter).length := by
  simp [pairs]

theorem flatten_numbering : (numbering next filter).flatten = List.range' next (2 * (pairs filter).length) := by
  induction filter generalizing next with
  | nil => rfl
  | cons entry filter ih =>
    rw [numbering, List.flatten_cons, ih, length_pairs, Nat.mul_add, ← List.range'_append_1]

theorem contained_string {v : Value} : (Parsed.string value).contained v.parsed = isText value v := by
  cases v with
  | number text => cases text <;> rfl
  | string s => simp [Parsed.contained, Value.parsed, Parsed.sameScalar, isText, eq_comm]
  | _ => rfl

theorem parsedItems_eq {items : List Value} : parsedItems items = items.map Value.parsed := by
  induction items with
  | nil => rfl
  | cons v items ih => rw [parsedItems, ih, List.map_cons]

theorem contained_singleton {v : Value} : (Parsed.array [.string value]).contained v.parsed = holdsText value v := by
  cases v with
  | number text => cases text <;> rfl
  | array items =>
    have hitems : (parsedItems items).any (Parsed.string value).contained = items.any (isText value) := by
      rw [parsedItems_eq, List.any_map]
      congr 1
      funext v
      exact contained_string
    rw [Parsed.contained, Value.parsed, Parsed.items, Option.any_some, containedItems, hitems, containedItems,
      Bool.and_true, holdsText]
  | _ => rfl

theorem lengths_numbering :
    (numbering next filter).map List.length = filter.map fun entry => 2 * entry.2.length := by
  induction filter generalizing next with
  | nil => rfl
  | cons entry filter ih => rw [numbering, List.map_cons, List.map_cons, ih, List.length_range']

theorem contains_forms : (forms (key, value)).any (fun form => contains metadata.parsed form.parsed) =
    acceptsValue metadata key value := by
  have hscalar : (scalarForm key value).parsed = .object [(key, .string value)] := rfl
  have harray : (arrayForm key value).parsed = .object [(key, .array [.string value])] := rfl
  rw [forms, List.any_cons, List.any_cons, List.any_nil, Bool.or_false, hscalar, harray, contains_entry, contains_entry]
  cases metadata with
  | object es =>
    rw [acceptsValue, field, Value.parsed, Parsed.entries, Option.any_some, Option.any_some, find?_parsedEntries]
    cases es.find? (·.1 = key) with
    | none => rfl
    | some e =>
      rw [Option.map_some, Option.map_some, Option.any_some, Option.any_some, Option.any_some, contained_string,
        contained_singleton]
  | number text => cases text <;> rfl
  | _ => rfl

theorem isStorable_key (hkey : isFilterKey key = true) : isStorable key = true := by
  have hunits : ∀ u ∈ key, 0x2B ≤ u.toNat ∧ u.toNat ≤ 0x7A := by
    rw [isFilterKey, Bool.and_eq_true] at hkey
    intro u hu
    apply ascii_of_isUsernameUnit
    have := List.all_eq_true.mp hkey.2 u hu
    simp only [isUsernameUnit, Bool.or_eq_true] at this ⊢
    exact this.elim (fun h => .inl (.inl (.inl h))) fun h => .inr h
  have hsurrogate : ∀ u ∈ key, isSurrogate u = false := by
    intro u hu
    rw [isSurrogate, Bool.and_eq_false_iff]
    refine .inl (decide_eq_false fun hle => ?_)
    have hu := (hunits u hu).2
    rw [UInt16.le_iff_toNat_le] at hle
    exact absurd (Nat.le_trans hle hu) (by decide)
  rw [isStorable, Bool.and_eq_true, Bool.not_eq_true', isWellFormed_iff]
  constructor
  · rw [← Bool.not_eq_true, List.contains_iff_mem]
    exact fun hnul => absurd (hunits NUL hnul).1 (by decide)
  · exact toWellFormed_append (s := []) hsurrogate

theorem map_getElem?_range' {pre segment post : List Parsed} :
    (List.range' (firstIndex + pre.length) segment.length).map (fun n => (pre ++ segment ++ post)[n - firstIndex]?) =
      segment.map some := by
  apply List.ext_getElem
  · simp
  · intro i hi hi'
    rw [List.length_map] at hi'
    have hplace : firstIndex + pre.length + 1 * i - firstIndex = pre.length + i := by omega
    rw [List.getElem_map, List.getElem_map, List.getElem_range', hplace, List.append_assoc,
      List.getElem?_append_right (Nat.le_add_right ..), Nat.add_sub_cancel_left, List.getElem?_append_left hi',
      List.getElem?_eq_getElem hi']

theorem castJsonb_forms (hkey : isFilterKey key = true) :
    ∀ form ∈ forms (key, value), castJsonb form.text = if isStorable value then some form.parsed else none := by
  have hstorable := isStorable_key hkey
  intro form hform
  rw [forms, List.mem_cons, List.mem_singleton] at hform
  rcases hform with rfl | rfl
  · rw [castJsonb_text rfl]
    simp [scalarForm, Value.parsed, parsedEntries, Parsed.all, allParsedEntries, hstorable]
  · rw [castJsonb_text rfl]
    simp [arrayForm, Value.parsed, parsedEntries, parsedItems, Parsed.all, allParsedEntries, allParsedItems, hstorable]

def boundForms (filter : MetadataFilter) : List Parsed := ((pairs filter).flatMap forms).map Value.parsed

def keyForms (entry : JsString × List JsString) : List Parsed :=
  (entry.2.flatMap fun value => forms (entry.1, value)).map Value.parsed

theorem boundForms_cons {entry : JsString × List JsString} :
    boundForms (entry :: filter) = keyForms entry ++ boundForms filter := by
  rw [boundForms, pairs, List.flatMap_cons, List.flatMap_append, List.flatMap_map, List.map_append]
  rfl

theorem length_keyForms {entry : JsString × List JsString} : (keyForms entry).length = 2 * entry.2.length := by
  simp [keyForms, forms, Nat.mul_comm]

theorem any_keyForms {entry : JsString × List JsString} :
    (keyForms entry).any (contains metadata.parsed) = entry.2.any (acceptsValue metadata entry.1) := by
  rw [keyForms, List.any_map, List.any_flatMap]
  congr 1
  funext value
  exact contains_forms

theorem evaluate_numbering {pre : List Parsed} : ((numbering (firstIndex + pre.length) filter).all fun numbers =>
    numbers.any fun n => (pre ++ boundForms filter)[n - firstIndex]?.any (contains metadata.parsed)) =
      filter.accepts metadata := by
  induction filter generalizing pre with
  | nil => rfl
  | cons entry filter ih =>
    have hone : ((List.range' (firstIndex + pre.length) (2 * entry.2.length)).any fun n =>
        (pre ++ (keyForms entry ++ boundForms filter))[n - firstIndex]?.any (contains metadata.parsed)) =
          entry.2.any (acceptsValue metadata entry.1) := by
      have hplaces := @map_getElem?_range' firstIndex pre (keyForms entry) (boundForms filter)
      rw [length_keyForms] at hplaces
      have hany := congrArg (List.any · (Option.any (contains metadata.parsed))) hplaces
      simp only [List.any_map] at hany
      rw [← any_keyForms, ← List.append_assoc]
      exact hany
    have hrest := @ih (pre ++ keyForms entry)
    rw [List.length_append, length_keyForms, ← Nat.add_assoc, List.append_assoc] at hrest
    rw [numbering, List.all_cons, boundForms_cons, hone, hrest]
    rfl

theorem values_eq : (metadataFilterSql filter firstIndex).values = ((pairs filter).flatMap forms).map Value.text := by
  rw [metadataFilterSql, clauses_eq]
  rfl

theorem sql_eq : (metadataFilterSql filter firstIndex).sql = (numbering firstIndex filter).flatMap clauseText := by
  rw [metadataFilterSql, clauses_eq, List.flatMap_def]
  rfl

theorem mapM_forms {ps : List (JsString × JsString)} (hkeys : ∀ pair ∈ ps, isFilterKey pair.1 = true) :
    ((ps.flatMap forms).map Value.text).mapM castJsonb =
      if ∀ pair ∈ ps, isStorable pair.2 = true then some ((ps.flatMap forms).map Value.parsed) else none := by
  induction ps with
  | nil => rfl
  | cons pair ps ih =>
    obtain ⟨hpair, hrest⟩ := List.forall_mem_cons.mp hkeys
    have hforms := @castJsonb_forms pair.1 pair.2 hpair
    have hscalar := hforms (scalarForm pair.1 pair.2) List.mem_cons_self
    have harray := hforms (arrayForm pair.1 pair.2) (List.mem_cons_of_mem _ List.mem_cons_self)
    rw [List.flatMap_cons, List.map_append, List.map_append, forms, List.map_cons, List.map_singleton, List.cons_append,
      List.singleton_append, List.mapM_cons, List.mapM_cons, hscalar, harray, ih hrest]
    have hall : (∀ p ∈ pair :: ps, isStorable p.2 = true) ↔
        isStorable pair.2 = true ∧ ∀ p ∈ ps, isStorable p.2 = true := List.forall_mem_cons
    by_cases hvalue : isStorable pair.2 = true
    · by_cases hvalues : ∀ pair ∈ ps, isStorable pair.2 = true
      · rw [if_pos hvalue, if_pos hvalue, if_pos hvalues, if_pos (hall.mpr ⟨hvalue, hvalues⟩)]
        rfl
      · rw [if_pos hvalue, if_pos hvalue, if_neg hvalues, if_neg fun h => hvalues (hall.mp h).2]
        rfl
    · rw [if_neg hvalue, if_neg fun h => hvalue (hall.mp h).1]
      rfl

theorem satisfies_eq (hfilter : WellFormed filter) :
    satisfies firstIndex (metadataFilterSql filter firstIndex).values (numbering firstIndex filter) metadata.parsed =
      if ∀ pair ∈ pairs filter, isStorable pair.2 = true then some (filter.accepts metadata) else none := by
  have hkeys : ∀ pair ∈ pairs filter, isFilterKey pair.1 = true := by
    intro pair hpair
    obtain ⟨accepted, hmem, -⟩ := mem_pairs.mp hpair
    exact hfilter.isKey _ hmem
  have hevaluate := @evaluate_numbering filter firstIndex metadata []
  rw [List.nil_append] at hevaluate
  rw [satisfies, values_eq, mapM_forms hkeys]
  split
  · exact congrArg some hevaluate
  · rfl

theorem metadataFilterSql_iff (raw : Option JsString) (filter : MetadataFilter) (firstIndex : Nat)
    (h : parseFilter raw = .ok filter) :
    ((metadataFilterSql filter firstIndex).sql = (numbering firstIndex filter).flatMap clauseText ∧
      (numbering firstIndex filter).map List.length = filter.map (fun entry => 2 * entry.2.length) ∧
      (numbering firstIndex filter).flatten =
        List.range' firstIndex (metadataFilterSql filter firstIndex).values.length ∧
      (metadataFilterSql filter firstIndex).values = (pairs filter).flatMap fun pair =>
        [(scalarForm pair.1 pair.2).text, (arrayForm pair.1 pair.2).text]) ∧
    (∀ key value, (key, value) ∈ pairs filter ↔ ∃ part ∈ (raw.getD []).splitOn COMMA,
      isNotEmpty (trim part) = true ∧ parsePair (trim part) = .ok (key, value)) ∧
    ((∀ metadata : Value, satisfies firstIndex (metadataFilterSql filter firstIndex).values
        (numbering firstIndex filter) metadata.parsed = some (filter.accepts metadata)) ↔
      ∀ pair ∈ pairs filter, isStorable pair.2 = true) := by
  obtain ⟨hfilter, hpairs⟩ := parseFilter_ok h
  refine ⟨⟨sql_eq, ?_, ?_, ?_⟩, hpairs, ?_⟩
  · exact lengths_numbering
  · rw [flatten_numbering, values_eq]
    simp [forms, Nat.mul_comm]
  · rw [values_eq, List.map_flatMap]
    rfl
  · constructor
    · intro hsatisfies
      have hnull := hsatisfies .null
      rw [satisfies_eq hfilter] at hnull
      split at hnull
      · assumption
      · cases hnull
    · intro hvalues metadata
      rw [satisfies_eq hfilter, if_pos hvalues]

theorem metadataFilterSql_iff_two :
    satisfies 5 (metadataFilterSql [(utf16 "type", [utf16 "a", utf16 "b:c"])] 5).values
      (numbering 5 [(utf16 "type", [utf16 "a", utf16 "b:c"])])
      (Value.object [(utf16 "type", .string (utf16 "b:c"))]).parsed = some true := by
  have hsatisfies := (metadataFilterSql_iff (some (utf16 "type:a, type:b:c"))
    [(utf16 "type", [utf16 "a", utf16 "b:c"])] 5 (by decide)).2.2.mpr (by decide)
  rw [hsatisfies]
  exact congrArg some (by decide)

def nulFilter : JsString := utf16 "type:a,type:" ++ [NUL]

theorem metadataFilterSql_nul : parseFilter (some nulFilter) = .ok [(utf16 "type", [utf16 "a", [NUL]])] ∧
    MetadataFilter.accepts [(utf16 "type", [utf16 "a", [NUL]])] (.object [(utf16 "type", .string (utf16 "a"))]) = true ∧
    satisfies 5 (metadataFilterSql [(utf16 "type", [utf16 "a", [NUL]])] 5).values
      (numbering 5 [(utf16 "type", [utf16 "a", [NUL]])])
      (Value.object [(utf16 "type", .string (utf16 "a"))]).parsed = none := by
  have hparse : parseFilter (some nulFilter) = .ok [(utf16 "type", [utf16 "a", [NUL]])] := by decide
  refine ⟨hparse, by decide, ?_⟩
  rw [satisfies_eq (parseFilter_ok hparse).1]
  exact if_neg (by decide)

end HomelabApps.KnowledgeBase.Store
