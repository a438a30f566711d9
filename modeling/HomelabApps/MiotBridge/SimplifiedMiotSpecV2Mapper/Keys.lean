import HomelabApps.MiotBridge.SimplifiedMiotSpecV2Mapper

namespace HomelabApps.MiotBridge.SpecMapper

open HomelabApps.Library
open HomelabApps.Library.Utf16

variable {Number : Type} {data : MiotSpecV2 Number} {ms ms' : List Member} {m m' : Member} {u : UInt16}

def typeNames (ms : List Member) : List (Option JsString) := ms.map fun m => typeName m.type

def Repeated (ms : List Member) (m : Member) : Prop := (typeNames ms).count (typeName m.type) > 1

instance : Decidable (Repeated ms m) := inferInstanceAs (Decidable (_ > 1))

/-- A unique type that reads like another member's key: like a repeated type with its iid, or, where it is absent,
like the type `undefined`. -/
def TakenFor (ms : List Member) (m m' : Member) : Prop :=
  ¬Repeated ms m ∧
    ((Repeated ms m' ∧ shown (typeName m.type) = shown (typeName m'.type) ++ HYPHEN :: numeral m'.iid) ∨
      (¬Repeated ms m' ∧ typeName m.type = none ∧ typeName m'.type = some (utf16 "undefined")))

instance : Decidable (TakenFor ms m m') := inferInstanceAs (Decidable (_ ∧ (_ ∨ _)))

def SameName (ms : List Member) (m : Member) (ms' : List Member) (m' : Member) : Prop :=
  if Repeated ms m then
    if Repeated ms' m' then shown (typeName m.type) = shown (typeName m'.type) ∧ m.iid = m'.iid
    else shown (typeName m.type) ++ HYPHEN :: numeral m.iid = shown (typeName m'.type)
  else
    if Repeated ms' m' then shown (typeName m.type) = shown (typeName m'.type) ++ HYPHEN :: numeral m'.iid
    else shown (typeName m.type) = shown (typeName m'.type)

instance : Decidable (SameName ms m ms' m') := by
  unfold SameName
  infer_instance

theorem shown_keyResolver : shown (keyResolver (typeNames ms) m) =
    if Repeated ms m then shown (typeName m.type) ++ HYPHEN :: numeral m.iid else shown (typeName m.type) := by
  rw [keyResolver, KeyedMap.getD_counts]
  by_cases h : Repeated ms m
  · rw [if_pos h]
    exact congrArg shown (if_pos h)
  · rw [if_neg h]
    exact congrArg shown (if_neg h)

theorem shown_keyResolver_eq :
    shown (keyResolver (typeNames ms) m) = shown (keyResolver (typeNames ms') m') ↔ SameName ms m ms' m' := by
  rw [shown_keyResolver, shown_keyResolver, SameName]
  split
  · split
    · constructor
      · intro h
        exact append_numeral_inj (by decide) h
      · intro h
        rw [h.1, h.2]
    · exact Iff.rfl
  · split
    · exact Iff.rfl
    · exact Iff.rfl

theorem repeated_of_type (hm : m ∈ ms) (hm' : m' ∈ ms) (hne : m ≠ m') (h : typeName m.type = typeName m'.type) :
    Repeated ms m := by
  obtain ⟨before, after, rfl⟩ := List.append_of_mem hm
  have hother : m' ∈ before ++ after := by
    rw [List.mem_append, List.mem_cons] at hm'
    rw [List.mem_append]
    exact hm'.imp_right fun h => h.resolve_left (Ne.symm hne)
  have hcount : 0 < (typeNames (before ++ after)).count (typeName m.type) :=
    List.count_pos_iff.mpr (h ▸ List.mem_map_of_mem hother)
  rw [Repeated, typeNames, List.map_append, List.map_cons, List.count_append, List.count_cons_self]
  rw [typeNames, List.map_append, List.count_append] at hcount
  omega

theorem TakenFor.ne (h : TakenFor ms m m') : m ≠ m' := by
  rintro rfl
  rcases h.2 with ⟨hrepeated, -⟩ | ⟨-, habsent, hnamed⟩
  · exact h.1 hrepeated
  · rw [habsent] at hnamed
    cases hnamed

theorem TakenFor.sameName (h : TakenFor ms m m') : SameName ms m ms m' := by
  rw [SameName, if_neg h.1]
  rcases h.2 with ⟨hrepeated, hread⟩ | ⟨hunique, habsent, hnamed⟩
  · rwa [if_pos hrepeated]
  · rw [if_neg hunique, habsent, hnamed]
    rfl

theorem takenFor_of_sameName (hiids : (ms.map (·.iid)).Nodup) (hm : m ∈ ms) (hm' : m' ∈ ms) (hne : m ≠ m')
    (h : SameName ms m ms m') : TakenFor ms m m' ∨ TakenFor ms m' m := by
  rw [SameName] at h
  split at h
  · rename_i hrepeated
    split at h
    · exact absurd (List.inj_on_of_nodup_map hiids hm hm' h.2) hne
    · rename_i hunique
      exact .inr ⟨hunique, .inl ⟨hrepeated, h.symm⟩⟩
  · rename_i hunique
    split at h
    · rename_i hrepeated
      exact .inl ⟨hunique, .inl ⟨hrepeated, h⟩⟩
    · rename_i hunique'
      cases ht : typeName m.type with
      | none =>
        cases ht' : typeName m'.type with
        | none => exact absurd (repeated_of_type hm hm' hne (ht.trans ht'.symm)) hunique
        | some name =>
          rw [ht, ht'] at h
          exact .inl ⟨hunique, .inr ⟨hunique', ht, ht'.trans (congrArg some h.symm)⟩⟩
      | some name =>
        cases ht' : typeName m'.type with
        | none =>
          rw [ht, ht'] at h
          exact .inr ⟨hunique', .inr ⟨hunique, ht', ht.trans (congrArg some h)⟩⟩
        | some name' =>
          rw [ht, ht'] at h
          exact absurd (repeated_of_type hm hm' hne (by rw [ht, ht', show name = name' from h])) hunique

theorem colon_shown_typeName (type : JsString) : COLON ∉ shown (typeName type) := by
  cases h : typeName type with
  | none => decide
  | some name => exact notMem_of_mem_splitOn (List.mem_of_getElem? h)

theorem colon_shown_keyResolver : COLON ∉ shown (keyResolver (typeNames ms) m) := by
  rw [shown_keyResolver]
  split
  · rw [List.mem_append, List.mem_cons, not_or, not_or]
    refine ⟨colon_shown_typeName m.type, by decide, fun h => ?_⟩
    have hdigit := digit_of_mem_numeral h
    exact absurd hdigit.2 (by decide)
  · exact colon_shown_typeName m.type

theorem keyOf_inj {s s' : Option JsString} {k k' : Option JsString} (hs : COLON ∉ shown s) (hs' : COLON ∉ shown s') :
    keyOf s k = keyOf s' k' ↔ shown s = shown s' ∧ shown k = shown k' := by
  constructor
  · exact append_separator_inj hs hs'
  · intro h
    rw [keyOf, keyOf, h.1, h.2]

def serviceMembers (data : MiotSpecV2 Number) : List Member := data.services.map (·.toMember)

def entries (members : MiotSpecV2Service Number → List Member) (data : MiotSpecV2 Number) :
    List (MiotSpecV2Service Number × Member) :=
  data.services.flatMap fun svc => (members svc).map (svc, ·)

def entryKey (members : MiotSpecV2Service Number → List Member) (data : MiotSpecV2 Number)
    (x : MiotSpecV2Service Number × Member) : JsString :=
  keyOf (keyResolver (typeNames (serviceMembers data)) x.1.toMember) (keyResolver (typeNames (members x.1)) x.2)

def Separate (members : MiotSpecV2Service Number → List Member) (data : MiotSpecV2 Number) : Prop :=
  (∀ svc ∈ data.services, ∀ m ∈ members svc, ∀ m' ∈ members svc, ¬TakenFor (members svc) m m') ∧
    ∀ svc ∈ data.services, ∀ svc' ∈ data.services, TakenFor (serviceMembers data) svc.toMember svc'.toMember →
      ∀ m ∈ members svc, ∀ m' ∈ members svc', ¬SameName (members svc) m (members svc') m'

instance {members : MiotSpecV2Service Number → List Member} : Decidable (Separate members data) := by
  unfold Separate
  infer_instance

variable {members : MiotSpecV2Service Number → List Member} {x y : MiotSpecV2Service Number × Member}

theorem mem_entries : x ∈ entries members data ↔ x.1 ∈ data.services ∧ x.2 ∈ members x.1 := by
  simp only [entries, List.mem_flatMap, List.mem_map]
  constructor
  · rintro ⟨svc, hsvc, m, hm, rfl⟩
    exact ⟨hsvc, hm⟩
  · intro h
    exact ⟨x.1, h.1, x.2, h.2, rfl⟩

theorem entryKey_eq : entryKey members data x = entryKey members data y ↔
    SameName (serviceMembers data) x.1.toMember (serviceMembers data) y.1.toMember ∧
      SameName (members x.1) x.2 (members y.1) y.2 := by
  rw [entryKey, entryKey, keyOf_inj colon_shown_keyResolver colon_shown_keyResolver, shown_keyResolver_eq,
    shown_keyResolver_eq]

theorem nodup_entries (hsiids : (data.services.map (·.iid)).Nodup)
    (hiids : ∀ svc ∈ data.services, ((members svc).map (·.iid)).Nodup) : (entries members data).Nodup := by
  rw [entries, List.nodup_flatMap]
  constructor
  · intro svc hsvc
    exact (hiids svc hsvc).of_map.map fun _ _ h => congrArg Prod.snd h
  · apply hsiids.of_map.imp
    intro svc svc' hne x hx hx'
    obtain ⟨m, -, rfl⟩ := List.mem_map.mp hx
    obtain ⟨m', -, h⟩ := List.mem_map.mp hx'
    exact hne (congrArg Prod.fst h).symm

theorem SameName.symm (h : SameName ms m ms' m') : SameName ms' m' ms m :=
  shown_keyResolver_eq.mp (shown_keyResolver_eq.mpr h).symm

theorem sameName_self : SameName ms m ms m := shown_keyResolver_eq.mp rfl

theorem nodup_entryKeys (hsiids : (data.services.map (·.iid)).Nodup)
    (hiids : ∀ svc ∈ data.services, ((members svc).map (·.iid)).Nodup) :
    ((entries members data).map (entryKey members data)).Nodup ↔ Separate members data := by
  rw [List.nodup_map_iff_inj_on (nodup_entries hsiids hiids)]
  constructor
  · intro hinj
    constructor
    · intro svc hsvc m hm m' hm' htaken
      have heq := hinj (svc, m) (mem_entries.mpr ⟨hsvc, hm⟩) (svc, m') (mem_entries.mpr ⟨hsvc, hm'⟩)
        (entryKey_eq.mpr ⟨sameName_self, htaken.sameName⟩)
      exact htaken.ne (congrArg Prod.snd heq)
    · intro svc hsvc svc' hsvc' htaken m hm m' hm' hname
      have heq := hinj (svc, m) (mem_entries.mpr ⟨hsvc, hm⟩) (svc', m') (mem_entries.mpr ⟨hsvc', hm'⟩)
        (entryKey_eq.mpr ⟨htaken.sameName, hname⟩)
      exact htaken.ne (congrArg (fun x => x.1.toMember) heq)
  · intro hseparate x hx y hy hkey
    obtain ⟨svc, m⟩ := x
    obtain ⟨svc', m'⟩ := y
    obtain ⟨hsvc, hm⟩ := mem_entries.mp hx
    obtain ⟨hsvc', hm'⟩ := mem_entries.mp hy
    obtain ⟨hservices, hnames⟩ := entryKey_eq.mp hkey
    have hsame : svc = svc' := by
      by_contra hne
      have hmembers : svc.toMember ≠ svc'.toMember := fun h =>
        hne (List.inj_on_of_nodup_map hsiids hsvc hsvc' (congrArg Member.iid h))
      have htypes : ((serviceMembers data).map (·.iid)).Nodup := by
        rw [serviceMembers, List.map_map]
        exact hsiids
      rcases takenFor_of_sameName htypes (List.mem_map_of_mem hsvc) (List.mem_map_of_mem hsvc') hmembers hservices
        with htaken | htaken
      · exact hseparate.2 svc hsvc svc' hsvc' htaken m hm m' hm' hnames
      · exact hseparate.2 svc' hsvc' svc hsvc htaken m' hm' m hm hnames.symm
    subst hsame
    have hmember : m = m' := by
      by_contra hne
      rcases takenFor_of_sameName (hiids svc hsvc) hm hm' hne hnames with htaken | htaken
      · exact hseparate.1 svc hsvc m hm m' hm' htaken
      · exact hseparate.1 svc hsvc m' hm' m hm htaken
    rw [hmember]

def properties (svc : MiotSpecV2Service Number) : List Member := svc.propertyMembers.getD []

def actions (svc : MiotSpecV2Service Number) : List Member := svc.actionMembers.getD []

theorem properties_eq (svc : MiotSpecV2Service Number) :
    properties svc = (svc.properties.getD []).map (·.toMember) := by
  rw [properties, MiotSpecV2Service.propertyMembers]
  cases svc.properties with
  | none => rfl
  | some properties => rfl

theorem actions_eq (svc : MiotSpecV2Service Number) : actions svc = (svc.actions.getD []).map (·.toMember) := by
  rw [actions, MiotSpecV2Service.actionMembers]
  cases svc.actions with
  | none => rfl
  | some actions => rfl

theorem buildServiceKeyResolver_eq (svc : MiotSpecV2Service Number) :
    buildServiceKeyResolver data svc = keyResolver (typeNames (serviceMembers data)) svc.toMember := by
  rw [buildServiceKeyResolver, typeNames, serviceMembers, List.map_map]
  rfl

theorem propertyKeyOf_eq (svc : MiotSpecV2Service Number) (p : Member) :
    propertyKeyOf data svc p = entryKey properties data (svc, p) := by
  rw [propertyKeyOf, buildServiceKeyResolver_eq]
  rfl

theorem actionKeyOf_eq (svc : MiotSpecV2Service Number) (a : Member) :
    actionKeyOf data svc a = entryKey actions data (svc, a) := by
  rw [actionKeyOf, buildServiceKeyResolver_eq]
  rfl

theorem map_propertyKeyOf : (data.properties.map fun x => propertyKeyOf data x.1 x.2.toMember) =
    (entries properties data).map (entryKey properties data) := by
  rw [MiotSpecV2.properties, entries, List.map_flatMap, List.map_flatMap]
  apply List.flatMap_congr
  intro svc _
  rw [properties_eq, List.map_map, List.map_map, List.map_map]
  apply List.map_congr_left
  intro p _
  exact propertyKeyOf_eq svc p.toMember

theorem map_actionKeyOf : (data.actions.map fun x => actionKeyOf data x.1 x.2.toMember) =
    (entries actions data).map (entryKey actions data) := by
  rw [MiotSpecV2.actions, entries, List.map_flatMap, List.map_flatMap]
  apply List.flatMap_congr
  intro svc _
  rw [actions_eq, List.map_map, List.map_map, List.map_map]
  apply List.map_congr_left
  intro a _
  exact actionKeyOf_eq svc a.toMember

structure Distinct (data : MiotSpecV2 Number) : Prop where
  siids : (data.services.map (·.iid)).Nodup
  piids : ∀ svc ∈ data.services, ((properties svc).map (·.iid)).Nodup
  aiids : ∀ svc ∈ data.services, ((actions svc).map (·.iid)).Nodup

def InputsKnown (data : MiotSpecV2 Number) : Prop :=
  ∀ x ∈ data.actions, ∀ piid ∈ x.2.inputs, ∃ p ∈ x.1.properties.getD [], p.iid = piid

structure Lossless (utils : MappingUtils) (data : MiotSpecV2 Number) (spec : SimplifiedMiotSpec Number) : Prop where
  propertyKeys : (data.properties.map fun x => propertyKeyOf data x.1 x.2.toMember).Nodup
  actionKeys : (data.actions.map fun x => actionKeyOf data x.1 x.2.toMember).Nodup
  properties : spec.properties.Perm (data.properties.map fun x =>
    (propertyKeyOf data x.1 x.2.toMember, mapProperty utils x.1 x.2))
  actions : (spec.actions.map Except.ok).Perm (data.actions.map fun x =>
    (mapAction data x.1 x.2).map fun action => (actionKeyOf data x.1 x.2.toMember, action))
  plainServices : ∀ svc ∈ data.services, ¬Repeated (serviceMembers data) svc.toMember →
    buildServiceKeyResolver data svc = typeName svc.type
  plainProperties : ∀ x ∈ data.properties, ¬Repeated (SpecMapper.properties x.1) x.2.toMember →
    buildMemberKeyResolver x.1.propertyMembers x.2.toMember = typeName x.2.type
  plainActions : ∀ x ∈ data.actions, ¬Repeated (SpecMapper.actions x.1) x.2.toMember →
    buildMemberKeyResolver x.1.actionMembers x.2.toMember = typeName x.2.type

theorem keyResolver_of_unique (h : ¬Repeated ms m) : keyResolver (typeNames ms) m = typeName m.type := by
  rw [keyResolver, KeyedMap.getD_counts]
  exact if_neg h

section Traversal

variable {ε α β : Type} {f : α → Except ε β} {l : List α} {r : List β}

theorem mapM_eq_ok : l.mapM f = .ok r ↔ l.map f = r.map Except.ok := by
  induction l generalizing r with
  | nil =>
    cases r with
    | nil => exact ⟨fun _ => rfl, fun _ => rfl⟩
    | cons b r => exact ⟨fun h => (List.cons_ne_nil b r (Except.ok.inj h).symm).elim, fun h => by cases h⟩
  | cons a l ih =>
    rw [List.mapM_cons, List.map_cons]
    cases hf : f a with
    | error e =>
      constructor
      · intro h
        cases h
      · intro h
        cases r <;> cases h
    | ok b =>
      cases hrest : l.mapM f with
      | error e =>
        constructor
        · intro h
          cases h
        · intro h
          cases r with
          | nil => cases h
          | cons c r =>
            have htail := ih.mpr (List.cons.inj h).2
            rw [hrest] at htail
            cases htail
      | ok bs =>
        have hbs := ih.mp hrest
        constructor
        · intro h
          rw [← Except.ok.inj h, List.map_cons, hbs]
        · intro h
          cases r with
          | nil => cases h
          | cons c r =>
            obtain ⟨hc, htail⟩ := List.cons.inj h
            rw [hbs] at htail
            obtain rfl := Except.ok.inj hc
            rw [List.map_injective_iff.mpr (fun _ _ => Except.ok.inj) htail]
            rfl

theorem exists_mapM_ok : (∃ r, l.mapM f = .ok r) ↔ ∀ a ∈ l, ∃ b, f a = .ok b := by
  constructor
  · rintro ⟨r, h⟩ a ha
    have hmem : f a ∈ r.map Except.ok := mapM_eq_ok.mp h ▸ List.mem_map_of_mem ha
    obtain ⟨b, -, hb⟩ := List.mem_map.mp hmem
    exact ⟨b, hb.symm⟩
  · intro h
    induction l with
    | nil => exact ⟨[], rfl⟩
    | cons a l ih =>
      obtain ⟨b, hb⟩ := h a List.mem_cons_self
      obtain ⟨r, hr⟩ := ih fun x hx => h x (List.mem_cons_of_mem _ hx)
      exact ⟨b :: r, mapM_eq_ok.mpr (by rw [List.map_cons, List.map_cons, hb, mapM_eq_ok.mp hr])⟩

end Traversal

theorem map_eq_ok {ε α β : Type} {e : Except ε α} {f : α → β} {b : β} (h : e.map f = .ok b) :
    ∃ a, e = .ok a ∧ f a = b := by
  cases e with
  | error e => cases h
  | ok a => exact ⟨a, rfl, Except.ok.inj h⟩

theorem exists_map_ok {ε α β : Type} {e : Except ε α} {f : α → β} :
    (∃ b, e.map f = .ok b) ↔ ∃ a, e = .ok a := by
  cases e with
  | error e =>
    constructor
    · intro ⟨b, h⟩
      cases h
    · intro ⟨a, h⟩
      cases h
  | ok a =>
    constructor
    · exact fun _ => ⟨a, rfl⟩
    · exact fun _ => ⟨f a, rfl⟩

theorem exists_mapInput {svc : MiotSpecV2Service Number} {a : MiotSpecV2ServiceAction} {piid : Nat} :
    (∃ key, mapInput data svc a piid = .ok key) ↔ ∃ p ∈ svc.properties.getD [], p.iid = piid := by
  rw [mapInput]
  cases h : (svc.properties.getD []).find? (·.iid = piid) with
  | none =>
    constructor
    · rintro ⟨key, hkey⟩
      cases hkey
    · rintro ⟨p, hp, hiid⟩
      exact absurd hiid (by simpa using List.find?_eq_none.mp h p hp)
  | some p =>
    exact ⟨fun _ => ⟨p, List.mem_of_find?_eq_some h, by simpa using List.find?_some h⟩, fun _ => ⟨_, rfl⟩⟩

theorem exists_map {utils : MappingUtils} :
    (∃ spec, map utils data [] = .ok spec) ↔ InputsKnown data := by
  rw [map, exists_map_ok, exists_mapM_ok, InputsKnown]
  refine forall_congr' fun x => ?_
  rw [(utils.once data.actions).mem_iff]
  refine imp_congr_right fun _ => ?_
  rw [setAction, exists_map_ok, mapAction, exists_map_ok, exists_mapM_ok]
  exact forall_congr' fun piid => imp_congr_right fun _ => exists_mapInput

theorem keys_setAction {xs : List (MiotSpecV2Service Number × MiotSpecV2ServiceAction)} {kept : List (JsString × MiotAction)}
    (h : xs.map (setAction data) = kept.map Except.ok) :
    kept.map (·.1) = xs.map fun x => actionKeyOf data x.1 x.2.toMember := by
  induction xs generalizing kept with
  | nil =>
    cases kept with
    | nil => rfl
    | cons e kept => cases h
  | cons x xs ih =>
    cases kept with
    | nil => cases h
    | cons e kept =>
      obtain ⟨hx, hrest⟩ := List.cons.inj h
      obtain ⟨action, -, rfl⟩ := map_eq_ok hx
      rw [List.map_cons, List.map_cons, ih hrest]

theorem map_lossless_iff (utils : MappingUtils) (data : MiotSpecV2 Number) (h : Distinct data) :
    ((∃ spec, map utils data [] = .ok spec) ↔ InputsKnown data) ∧
      ∀ spec, map utils data [] = .ok spec →
        (Lossless utils data spec ↔ Separate properties data ∧ Separate actions data) := by
  refine ⟨exists_map, fun spec hspec => ?_⟩
  have hpropertyKeys := nodup_entryKeys h.siids h.piids
  have hactionKeys := nodup_entryKeys h.siids h.aiids
  rw [← map_propertyKeyOf] at hpropertyKeys
  rw [← map_actionKeyOf] at hactionKeys
  constructor
  · intro hlossless
    exact ⟨hpropertyKeys.mp hlossless.propertyKeys, hactionKeys.mp hlossless.actionKeys⟩
  · intro hseparate
    have hproperties := hpropertyKeys.mpr hseparate.1
    have hactions := hactionKeys.mpr hseparate.2
    obtain ⟨kept, hkept, rfl⟩ := map_eq_ok hspec
    have hsets := mapM_eq_ok.mp hkept
    exact {
      propertyKeys := hproperties
      actionKeys := hactions
      properties := by
        have hperm := (utils.once data.properties).map (setProperty utils data)
        have hkeys : (((utils.order data.properties).map (setProperty utils data)).map (·.1)).Nodup := by
          rw [(hperm.map _).nodup_iff, List.map_map]
          exact hproperties
        have hset := @KeyedMap.setAll_of_nodup _ _ _ [] _ hkeys
        rw [List.foldl_nil, hset]
        exact hperm
      actions := by
        have hperm := (utils.once data.actions).map (setAction data)
        have hkeys : (kept.map (·.1)).Nodup := by
          rw [keys_setAction hsets, ((utils.once data.actions).map _).nodup_iff]
          exact hactions
        have hset : KeyedMap.setAll [] kept = kept := KeyedMap.setAll_of_nodup hkeys
        dsimp only
        rw [hset, ← hsets]
        exact hperm
      plainServices := fun svc _ hunique => (buildServiceKeyResolver_eq svc).trans (keyResolver_of_unique hunique)
      plainProperties := fun x _ hunique => keyResolver_of_unique hunique
      plainActions := fun x _ hunique => keyResolver_of_unique hunique }

def inTurn : MappingUtils where
  order l := l
  once _ := List.Perm.refl _
  mapEnum
    | .read => .read
    | .write => .write
    | .notify => .notify

def ofType (iid : Nat) (type : String) : MiotSpecV2ServiceProperty Nat where
  iid := iid
  type := utf16 ("urn:miot:property:" ++ type)
  format := .bool
  access := [.read, .write]
  valueList := none
  valueRange := none

def switchOf (iid : Nat) (type : String) (properties : List (MiotSpecV2ServiceProperty Nat)) : MiotSpecV2Service Nat where
  iid := iid
  type := utf16 ("urn:miot:service:" ++ type)
  properties := some properties
  actions := some [⟨⟨1, utf16 "urn:miot:action:reset"⟩, [2]⟩]

def twoGang : MiotSpecV2 Nat where
  type := utf16 "urn:miot:device:switch"
  description := utf16 "Switch"
  services := [switchOf 2 "switch" [ofType 1 "on", ofType 2 "mode", ofType 6 "mode"], switchOf 3 "switch" [ofType 2 "on"]]

theorem map_lossless_twoGang : ∃ spec, map inTurn twoGang [] = .ok spec ∧ Lossless inTurn twoGang spec := by
  obtain ⟨hmapped, hlossless⟩ := map_lossless_iff inTurn twoGang ⟨by decide, by decide, by decide⟩
  obtain ⟨spec, hspec⟩ := hmapped.mpr (by unfold InputsKnown; decide)
  exact ⟨spec, hspec, (hlossless spec hspec).mpr ⟨by decide, by decide⟩⟩

def oneGang : MiotSpecV2 Nat where
  type := utf16 "urn:miot:device:switch"
  description := utf16 "Switch"
  services := [switchOf 2 "switch" [ofType 2 "mode", ofType 6 "mode", ofType 7 "mode-2"]]

theorem map_loses : Distinct oneGang ∧ oneGang.properties.length = 3 ∧
    ((map inTurn oneGang []).map fun spec => spec.properties.map fun e => (e.1, e.2.piid)) =
      .ok [(utf16 "switch:mode-2", 7), (utf16 "switch:mode-6", 6)] :=
  ⟨⟨by decide, by decide, by decide⟩, by decide, by decide⟩

end HomelabApps.MiotBridge.SpecMapper
