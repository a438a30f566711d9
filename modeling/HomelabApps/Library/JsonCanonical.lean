import HomelabApps.Library.JsonKeys
import HomelabApps.Library.JsonText

namespace HomelabApps.Library.Json

open HomelabApps.Library.Utf16

mutual

def Value.keyed : Value → Bool
  | .array items => keyedItems items
  | .object entries => (entries.map Prod.fst).Nodup && keyedEntries entries
  | _ => true

def keyedItems : List Value → Bool
  | [] => true
  | v :: vs => v.keyed && keyedItems vs

def keyedEntries : List (JsString × Value) → Bool
  | [] => true
  | (_, v) :: es => v.keyed && keyedEntries es

end

mutual

def Value.finite : Value → Value
  | .number none => .null
  | .array items => .array (finiteItems items)
  | .object entries => .object (finiteEntries entries)
  | v => v

def finiteItems : List Value → List Value
  | [] => []
  | v :: vs => v.finite :: finiteItems vs

def finiteEntries : List (JsString × Value) → List (JsString × Value)
  | [] => []
  | (k, v) :: es => (k, v.finite) :: finiteEntries es

end

mutual

def Value.settled (compare : JsString → JsString → Ordering) : Value → Bool
  | .array items => settledItems compare items
  | .object entries => SettledKeys compare (entries.map Prod.fst) && settledEntries compare entries
  | _ => true

def settledItems (compare : JsString → JsString → Ordering) : List Value → Bool
  | [] => true
  | v :: vs => v.settled compare && settledItems compare vs

def settledEntries (compare : JsString → JsString → Ordering) : List (JsString × Value) → Bool
  | [] => true
  | (_, v) :: es => v.settled compare && settledEntries compare es

end

mutual

theorem Value.tree_induction {motive : Value → Prop} (null : motive .null) (bool : ∀ b, motive (.bool b))
    (number : ∀ text, motive (.number text)) (string : ∀ s, motive (.string s))
    (array : ∀ vs, (∀ v ∈ vs, motive v) → motive (.array vs))
    (object : ∀ es : List (JsString × Value), (∀ e ∈ es, motive e.2) → motive (.object es))
    (ancestor : ∀ depth, motive (.ancestor depth)) : (v : Value) → motive v
  | .null => null
  | .bool b => bool b
  | .number text => number text
  | .string s => string s
  | .array vs => array vs (items_induction null bool number string array object ancestor vs)
  | .object es => object es (entries_induction null bool number string array object ancestor es)
  | .ancestor depth => ancestor depth

theorem items_induction {motive : Value → Prop} (null : motive .null) (bool : ∀ b, motive (.bool b))
    (number : ∀ text, motive (.number text)) (string : ∀ s, motive (.string s))
    (array : ∀ vs, (∀ v ∈ vs, motive v) → motive (.array vs))
    (object : ∀ es : List (JsString × Value), (∀ e ∈ es, motive e.2) → motive (.object es))
    (ancestor : ∀ depth, motive (.ancestor depth)) : (vs : List Value) → ∀ v ∈ vs, motive v
  | [] => fun _ h => absurd h List.not_mem_nil
  | v :: vs => List.forall_mem_cons.mpr
    ⟨Value.tree_induction null bool number string array object ancestor v,
      items_induction null bool number string array object ancestor vs⟩

theorem entries_induction {motive : Value → Prop} (null : motive .null) (bool : ∀ b, motive (.bool b))
    (number : ∀ text, motive (.number text)) (string : ∀ s, motive (.string s))
    (array : ∀ vs, (∀ v ∈ vs, motive v) → motive (.array vs))
    (object : ∀ es : List (JsString × Value), (∀ e ∈ es, motive e.2) → motive (.object es))
    (ancestor : ∀ depth, motive (.ancestor depth)) :
    (es : List (JsString × Value)) → ∀ e ∈ es, motive e.2
  | [] => fun _ h => absurd h List.not_mem_nil
  | (_, v) :: es => List.forall_mem_cons.mpr
    ⟨Value.tree_induction null bool number string array object ancestor v,
      entries_induction null bool number string array object ancestor es⟩

end

variable {compare : JsString → JsString → Ordering} {vs : List Value} {es fs : List (JsString × Value)}

def mapValues (f : Value → Value) (es : List (JsString × Value)) : List (JsString × Value) :=
  es.map fun e => (e.1, f e.2)

theorem sortedItems_eq : sortedItems compare vs = vs.map (·.sorted compare) := by
  induction vs with
  | nil => rfl
  | cons v vs ih => rw [sortedItems, ih, List.map_cons]

theorem sortedEntries_eq : sortedEntries compare es = mapValues (·.sorted compare) es := by
  induction es with
  | nil => rfl
  | cons e es ih =>
    rw [sortedEntries, ih]
    rfl

theorem jsonbItems_eq : jsonbItems vs = vs.map (·.jsonb) := by
  induction vs with
  | nil => rfl
  | cons v vs ih => rw [jsonbItems, ih, List.map_cons]

theorem jsonbEntries_eq : jsonbEntries es = mapValues (·.jsonb) es := by
  induction es with
  | nil => rfl
  | cons e es ih =>
    rw [jsonbEntries, ih]
    rfl

theorem finiteItems_eq : finiteItems vs = vs.map (·.finite) := by
  induction vs with
  | nil => rfl
  | cons v vs ih => rw [finiteItems, ih, List.map_cons]

theorem finiteEntries_eq : finiteEntries es = mapValues (·.finite) es := by
  induction es with
  | nil => rfl
  | cons e es ih =>
    rw [finiteEntries, ih]
    rfl

theorem textItems_eq : textItems vs = vs.map (·.text) := by
  induction vs with
  | nil => rfl
  | cons v vs ih => rw [textItems, ih, List.map_cons]

theorem textEntries_eq : textEntries es = es.map fun e => quote e.1 ++ [0x3A] ++ e.2.text := by
  induction es with
  | nil => rfl
  | cons e es ih =>
    rw [textEntries, ih]
    rfl

theorem keyedItems_iff : keyedItems vs = true ↔ ∀ v ∈ vs, v.keyed = true := by
  induction vs with
  | nil => simp [keyedItems]
  | cons v vs ih => simp [keyedItems, ih]

theorem keyedEntries_iff : keyedEntries es = true ↔ ∀ e ∈ es, e.2.keyed = true := by
  induction es with
  | nil => simp [keyedEntries]
  | cons e es ih => simp [keyedEntries, ih]

theorem settledItems_iff : settledItems compare vs = true ↔ ∀ v ∈ vs, v.settled compare = true := by
  induction vs with
  | nil => simp [settledItems]
  | cons v vs ih => simp [settledItems, ih]

theorem settledEntries_iff : settledEntries compare es = true ↔ ∀ e ∈ es, e.2.settled compare = true := by
  induction es with
  | nil => simp [settledEntries]
  | cons e es ih => simp [settledEntries, ih]

theorem plainItems_iff : plainItems vs = true ↔ ∀ v ∈ vs, v.plain = true := by
  induction vs with
  | nil => simp [plainItems]
  | cons v vs ih => simp [plainItems, ih]

theorem plainEntries_iff : plainEntries es = true ↔ ∀ e ∈ es, e.2.plain = true := by
  induction es with
  | nil => simp [plainEntries]
  | cons e es ih => simp [plainEntries, ih]

theorem acyclicItems_iff : acyclicItems vs = true ↔ ∀ v ∈ vs, v.acyclic = true := by
  induction vs with
  | nil => simp [acyclicItems]
  | cons v vs ih => simp [acyclicItems, ih]

section Entries

variable {f g : Value → Value}

theorem mapValues_mapValues : mapValues f (mapValues g es) = mapValues (fun v => f (g v)) es := by
  rw [mapValues, mapValues, List.map_map]
  rfl

theorem mapValues_congr (h : ∀ e ∈ es, f e.2 = g e.2) : mapValues f es = mapValues g es :=
  List.map_congr_left fun e he => congrArg (Prod.mk e.1) (h e he)

theorem map_fst_mapValues : (mapValues f es).map Prod.fst = es.map Prod.fst := by
  rw [mapValues, List.map_map]
  rfl

theorem insertionSort_mapValues {r : JsString → JsString → Prop} [DecidableRel r] :
    (mapValues f es).insertionSort (fun a b => r a.1 b.1) =
      mapValues f (es.insertionSort fun a b => r a.1 b.1) :=
  (List.map_insertionSort _ _ (fun e : JsString × Value => (e.1, f e.2)) es fun _ _ _ _ => Iff.rfl).symm

theorem map_fst_insertionSort {r : JsString → JsString → Prop} [DecidableRel r] :
    (es.insertionSort fun a b => r a.1 b.1).map Prod.fst = (es.map Prod.fst).insertionSort r :=
  List.map_insertionSort _ _ Prod.fst es fun _ _ _ _ => Iff.rfl

theorem enumerate_mapValues : enumerate (mapValues f es) = mapValues f (enumerate es) := by
  have hfilter : ∀ p : JsString → Bool, (mapValues f es).filter (fun e => p e.1) =
      mapValues f (es.filter fun e => p e.1) := fun p => List.filter_map
  rw [enumerate, enumerate, hfilter fun k => (arrayIndex k).isSome, hfilter fun k => (arrayIndex k).isNone,
    insertionSort_mapValues (r := fun a b => (arrayIndex a).getD 0 ≤ (arrayIndex b).getD 0)]
  exact List.map_append.symm

theorem map_fst_enumerate : (enumerate es).map Prod.fst = enumerateKeys (es.map Prod.fst) := by
  rw [enumerate, enumerateKeys, indexKeys, nameKeys, List.map_append,
    map_fst_insertionSort (r := fun a b => (arrayIndex a).getD 0 ≤ (arrayIndex b).getD 0), List.filter_map,
    List.filter_map]
  rfl

end Entries

def sortEntries (compare : JsString → JsString → Ordering) (es : List (JsString × Value)) :
    List (JsString × Value) :=
  enumerate (es.insertionSort fun a b => compare a.1 b.1 ≠ .gt)

theorem sortEntries_perm : (sortEntries compare es).Perm es :=
  enumerate_perm.trans (List.perm_insertionSort _ _)

theorem sortEntries_mapValues {f : Value → Value} :
    sortEntries compare (mapValues f es) = mapValues f (sortEntries compare es) := by
  rw [sortEntries, insertionSort_mapValues (r := fun a b => compare a b ≠ .gt), enumerate_mapValues]
  rfl

theorem map_fst_sortEntries :
    (sortEntries compare es).map Prod.fst = enumerateKeys (sortKeys compare (es.map Prod.fst)) := by
  rw [sortEntries, map_fst_enumerate, map_fst_insertionSort (r := fun a b => compare a b ≠ .gt)]
  rfl

theorem sorted_object : (Value.object es).sorted compare =
    .object (mapValues (·.sorted compare) (sortEntries compare es)) := by
  rw [Value.sorted, sortedEntries_eq, ← sortEntries_mapValues]
  rfl

theorem sorted_array : (Value.array vs).sorted compare = .array (vs.map (·.sorted compare)) := by
  rw [Value.sorted, sortedItems_eq]

theorem jsonb_object : (Value.object es).jsonb =
    .object (mapValues (·.jsonb) (es.insertionSort fun a b => jsonbKeyLe a.1 b.1)) := by
  rw [Value.jsonb, jsonbEntries_eq, insertionSort_mapValues]

theorem jsonb_array : (Value.array vs).jsonb = .array (vs.map (·.jsonb)) := by
  rw [Value.jsonb, jsonbItems_eq]

theorem finite_object : (Value.object es).finite = .object (mapValues (·.finite) es) := by
  rw [Value.finite, finiteEntries_eq]

theorem finite_array : (Value.array vs).finite = .array (vs.map (·.finite)) := by
  rw [Value.finite, finiteItems_eq]

theorem eq_of_map_fst (h : es.Perm fs) (hnodup : (fs.map Prod.fst).Nodup)
    (hkeys : es.map Prod.fst = fs.map Prod.fst) : es = fs := by
  have hinj : ∀ a ∈ es, ∀ b ∈ fs, a.1 = b.1 → a = b := fun a ha b hb hab =>
    List.inj_on_of_nodup_map hnodup (h.mem_iff.mp ha) hb hab
  clear h hnodup
  induction es generalizing fs with
  | nil => exact (List.map_eq_nil_iff.mp hkeys.symm).symm
  | cons a es ih =>
    cases fs with
    | nil => cases hkeys
    | cons b fs =>
      obtain ⟨hfirst, hrest⟩ := List.cons.inj hkeys
      rw [hinj a List.mem_cons_self b List.mem_cons_self hfirst, ih hrest fun a ha b hb =>
        hinj a (List.mem_cons_of_mem _ ha) b (List.mem_cons_of_mem _ hb)]

theorem insertionSort_sortEntries (hnodup : (es.map Prod.fst).Nodup) :
    (sortEntries compare es).insertionSort (fun a b => jsonbKeyLe a.1 b.1) =
      es.insertionSort fun a b => jsonbKeyLe a.1 b.1 := by
  have hperm : ((sortEntries compare es).insertionSort fun a b => jsonbKeyLe a.1 b.1).Perm
      (es.insertionSort fun a b => jsonbKeyLe a.1 b.1) :=
    ((List.perm_insertionSort _ _).trans sortEntries_perm).trans (List.perm_insertionSort _ _).symm
  refine eq_of_map_fst hperm ?_ ?_
  · exact ((List.perm_insertionSort _ _).map Prod.fst).nodup_iff.mpr hnodup
  · rw [map_fst_insertionSort, map_fst_insertionSort]
    refine List.Perm.eq_of_pairwise (fun a b _ _ => Std.Antisymm.antisymm a b)
      (List.pairwise_insertionSort jsonbKeyLe _) (List.pairwise_insertionSort jsonbKeyLe _) ?_
    exact (List.perm_insertionSort _ _).trans
      ((sortEntries_perm.map Prod.fst).trans (List.perm_insertionSort _ _).symm)

theorem sortEntries_jsonb_iff [Std.TransCmp compare] {f g : Value → Value} (hnodup : (es.map Prod.fst).Nodup) :
    mapValues f (sortEntries compare (es.insertionSort fun a b => jsonbKeyLe a.1 b.1)) =
        mapValues g (sortEntries compare es) ↔
      SettledKeys compare (es.map Prod.fst) ∧ ∀ e ∈ es, f e.2 = g e.2 := by
  have hkeys : (sortEntries compare (es.insertionSort fun a b => jsonbKeyLe a.1 b.1)).map Prod.fst =
      (sortEntries compare es).map Prod.fst ↔ SettledKeys compare (es.map Prod.fst) := by
    rw [map_fst_sortEntries, map_fst_sortEntries, map_fst_insertionSort]
    exact enumerateKeys_eq_iff hnodup
  have hperm : (sortEntries compare (es.insertionSort fun a b => jsonbKeyLe a.1 b.1)).Perm
      (sortEntries compare es) :=
    (sortEntries_perm.trans (List.perm_insertionSort _ _)).trans sortEntries_perm.symm
  have hsorted : ((sortEntries compare es).map Prod.fst).Nodup :=
    (sortEntries_perm.map Prod.fst).nodup_iff.mpr hnodup
  constructor
  · intro heq
    have hsame := congrArg (List.map Prod.fst) heq
    rw [map_fst_mapValues, map_fst_mapValues] at hsame
    refine ⟨hkeys.mp hsame, fun e he => ?_⟩
    rw [eq_of_map_fst hperm hsorted hsame] at heq
    have hvalue := List.map_inj_left.mp heq e (sortEntries_perm.mem_iff.mpr he)
    exact (Prod.mk.inj hvalue).2
  · rintro ⟨hsettled, hvalues⟩
    rw [eq_of_map_fst hperm hsorted (hkeys.mpr hsettled)]
    refine List.map_congr_left fun e he => ?_
    rw [hvalues e (sortEntries_perm.mem_iff.mp he)]

theorem Value.sorted_jsonb_iff [Std.TransCmp compare] {v : Value} (h : v.keyed = true) :
    v.jsonb.sorted compare = (v.sorted compare).finite ↔ v.settled compare = true := by
  induction v using Value.tree_induction with
  | null => exact ⟨fun _ => rfl, fun _ => rfl⟩
  | bool b => exact ⟨fun _ => rfl, fun _ => rfl⟩
  | number text => cases text <;> exact ⟨fun _ => rfl, fun _ => rfl⟩
  | string s => exact ⟨fun _ => rfl, fun _ => rfl⟩
  | array items ih =>
    have hitems := keyedItems_iff.mp h
    rw [jsonb_array, sorted_array, sorted_array, finite_array, List.map_map, List.map_map,
      Value.array.injEq, List.map_inj_left, Value.settled, settledItems_iff]
    exact forall₂_congr fun v hv => ih v hv (hitems v hv)
  | object entries ih =>
    obtain ⟨hnodup, hvalues⟩ := Bool.and_eq_true_iff.mp h
    have hvalues := keyedEntries_iff.mp hvalues
    rw [jsonb_object, sorted_object, sorted_object, finite_object, sortEntries_mapValues, mapValues_mapValues,
      mapValues_mapValues, Value.object.injEq, sortEntries_jsonb_iff (of_decide_eq_true hnodup),
      Value.settled, Bool.and_eq_true, decide_eq_true_eq, settledEntries_iff]
    exact and_congr_right fun _ => forall₂_congr fun e he => ih e he (hvalues e he)
  | ancestor depth => exact ⟨fun _ => rfl, fun _ => rfl⟩

theorem Value.jsonb_finite {v : Value} : v.finite.jsonb = v.jsonb := by
  induction v using Value.tree_induction with
  | null => rfl
  | bool b => rfl
  | number text => cases text <;> rfl
  | string s => rfl
  | array items ih =>
    rw [finite_array, jsonb_array, jsonb_array, List.map_map]
    exact congrArg _ (List.map_congr_left ih)
  | object entries ih =>
    rw [finite_object, jsonb_object, jsonb_object, insertionSort_mapValues, mapValues_mapValues]
    exact congrArg _ (mapValues_congr fun e he => ih e ((List.mem_insertionSort _).mp he))
  | ancestor depth => rfl

theorem Value.jsonb_sorted {v : Value} (h : v.keyed = true) : (v.sorted compare).jsonb = v.jsonb := by
  induction v using Value.tree_induction with
  | null => rfl
  | bool b => rfl
  | number text => rfl
  | string s => rfl
  | array items ih =>
    have hitems := keyedItems_iff.mp h
    rw [sorted_array, jsonb_array, jsonb_array, List.map_map]
    exact congrArg _ (List.map_congr_left fun v hv => ih v hv (hitems v hv))
  | object entries ih =>
    obtain ⟨hnodup, hvalues⟩ := Bool.and_eq_true_iff.mp h
    have hvalues := keyedEntries_iff.mp hvalues
    rw [sorted_object, jsonb_object, jsonb_object, insertionSort_mapValues, mapValues_mapValues,
      insertionSort_sortEntries (of_decide_eq_true hnodup)]
    refine congrArg _ (mapValues_congr fun e he => ?_)
    have he := (List.mem_insertionSort _).mp he
    exact ih e he (hvalues e he)
  | ancestor depth => rfl

theorem Value.text_finite {v : Value} : v.finite.text = v.text := by
  induction v using Value.tree_induction with
  | null => rfl
  | bool b => rfl
  | number text => cases text <;> rfl
  | string s => rfl
  | array items ih =>
    have htexts : items.map ((·.text) ∘ (·.finite)) = items.map (·.text) := List.map_congr_left ih
    rw [finite_array, Value.text, Value.text, textItems_eq, textItems_eq, List.map_map, htexts]
  | object entries ih =>
    have htexts : (mapValues (·.finite) entries).map (fun e => quote e.1 ++ [0x3A] ++ e.2.text) =
        entries.map fun e => quote e.1 ++ [0x3A] ++ e.2.text := by
      rw [mapValues, List.map_map]
      exact List.map_congr_left fun e he => congrArg (quote e.1 ++ [0x3A] ++ ·) (ih e he)
    rw [finite_object, Value.text, Value.text, textEntries_eq, textEntries_eq, htexts]
  | ancestor depth => rfl

theorem Value.plain_finite {v : Value} (h : v.acyclic = true) : v.finite.plain = true := by
  induction v using Value.tree_induction with
  | null => rfl
  | bool b => rfl
  | number text => cases text <;> rfl
  | string s => rfl
  | array items ih =>
    have hitems := acyclicItems_iff.mp h
    rw [finite_array, Value.plain, plainItems_iff, List.forall_mem_map]
    exact fun v hv => ih v hv (hitems v hv)
  | object entries ih =>
    have hvalues := acyclicEntries_iff.mp h
    rw [finite_object, Value.plain, plainEntries_iff, mapValues, List.forall_mem_map]
    exact fun e he => ih e he (hvalues e he)
  | ancestor depth => cases h

theorem Value.plain_jsonb {v : Value} (h : v.acyclic = true) : v.jsonb.plain = true := by
  induction v using Value.tree_induction with
  | null => rfl
  | bool b => rfl
  | number text => cases text <;> rfl
  | string s => rfl
  | array items ih =>
    have hitems := acyclicItems_iff.mp h
    rw [jsonb_array, Value.plain, plainItems_iff, List.forall_mem_map]
    exact fun v hv => ih v hv (hitems v hv)
  | object entries ih =>
    have hvalues := acyclicEntries_iff.mp h
    rw [jsonb_object, Value.plain, plainEntries_iff, mapValues, List.forall_mem_map]
    intro e he
    have he := (List.mem_insertionSort _).mp he
    exact ih e he (hvalues e he)
  | ancestor depth => cases h

theorem Value.plain_sorted {v : Value} (h : v.plain = true) : (v.sorted compare).plain = true := by
  induction v using Value.tree_induction with
  | null => rfl
  | bool b => rfl
  | number text => exact h
  | string s => rfl
  | array items ih =>
    have hitems := plainItems_iff.mp h
    rw [sorted_array, Value.plain, plainItems_iff, List.forall_mem_map]
    exact fun v hv => ih v hv (hitems v hv)
  | object entries ih =>
    have hvalues := plainEntries_iff.mp h
    rw [sorted_object, Value.plain, plainEntries_iff, mapValues, List.forall_mem_map]
    intro e he
    have he := sortEntries_perm.mem_iff.mp he
    exact ih e he (hvalues e he)
  | ancestor depth => cases h

theorem text_sorted_jsonb_iff [Std.TransCmp compare] {v : Value} (hkeyed : v.keyed = true)
    (hacyclic : v.acyclic = true) :
    (v.jsonb.sorted compare).text = (v.sorted compare).text ↔ v.settled compare = true := by
  rw [← Value.sorted_jsonb_iff hkeyed, ← Value.text_finite (v := v.sorted compare)]
  refine ⟨fun h => text_inj (Value.plain_sorted (Value.plain_jsonb hacyclic)) (Value.plain_finite ?_) h,
    congrArg Value.text⟩
  rw [Value.acyclic_sorted, hacyclic]

theorem jsonb_eq_of_text {v w : Value} (hv : v.keyed = true) (hw : w.keyed = true)
    (hva : v.acyclic = true) (hwa : w.acyclic = true)
    (h : (v.sorted compare).text = (w.sorted compare).text) : v.jsonb = w.jsonb := by
  have hfinite : (v.sorted compare).finite = (w.sorted compare).finite := by
    refine text_inj (Value.plain_finite ?_) (Value.plain_finite ?_) ?_
    · rw [Value.acyclic_sorted, hva]
    · rw [Value.acyclic_sorted, hwa]
    · rw [Value.text_finite, Value.text_finite, h]
  rw [← Value.jsonb_sorted hv, ← Value.jsonb_sorted hw, ← Value.jsonb_finite, hfinite, Value.jsonb_finite]

end HomelabApps.Library.Json
