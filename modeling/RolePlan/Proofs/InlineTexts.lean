import RolePlan.Proofs.Inline
import RolePlan.Proofs.Portable
import RolePlan.Proofs.Stored
import RolePlan.Proofs.Texts

/-!
# Texts of inline resources

Where the references to a role are replaced, an inline resource keeps its type and its settings:
only its properties are gone through. The value tree that stands for it has all of them as texts. So
the two forms of a template come out alike as far as these texts are left alone, and no further.
-/

namespace RolePlan

namespace Value

def optionalTexts (v : Option Value) : List String := v.elim [] texts

theorem eq_map_mapTexts_iff (f : String → String) (v : Option Value) :
    v = v.map (mapTexts f) ↔ ∀ text ∈ optionalTexts v, f text = text := by
  cases v with
  | none => simp [optionalTexts]
  | some v => simpa [optionalTexts, eq_comm (b := v)] using v.mapTexts_eq_self_iff_forall f

/-! ## Fields that are written -/

variable (name : String) (v : Option Value) (fields : Table Value)

theorem textsEntries_append (first rest : List (String × Value)) :
    textsEntries (first ++ rest) = textsEntries first ++ textsEntries rest := by
  induction first with
  | nil => rfl
  | cons entry more ih => simp only [List.cons_append, textsEntries, ih, List.append_assoc]

theorem textsEntries_optionalField : textsEntries (optionalField name v) = optionalTexts v := by
  cases v with
  | none => rfl
  | some v => exact List.append_nil v.texts

theorem textsEntries_mappingField :
    textsEntries (mappingField name fields) = textsEntries fields.entries := by
  obtain ⟨entries⟩ := fields
  cases entries with
  | nil => rfl
  | cons entry rest => exact List.append_nil (textsEntries (entry :: rest))

theorem map_optionalField (f : Value → Value) :
    (optionalField name v).map (fun entry => (entry.1, f entry.2)) =
      optionalField name (v.map f) := by
  cases v <;> rfl

theorem map_mappingField (f : String → String) :
    (mappingField name fields).map (fun entry => (entry.1, entry.2.mapTexts f)) =
      mappingField name (fields.map (mapTexts f)) := by
  obtain ⟨entries⟩ := fields
  cases entries with
  | nil => rfl
  | cons entry rest =>
      change [(name, object ⟨mapTextsEntries f (entry :: rest)⟩)] = _
      rw [mapTextsEntries_eq_map]
      rfl

end Value

namespace Resource

/-- The type of a resource and the texts in its settings. -/
def ownTexts (r : Resource) : List String :=
  r.type :: (Value.optionalTexts r.metadata ++ Value.optionalTexts r.dependsOn ++
    Value.optionalTexts r.updatePolicy ++ Value.optionalTexts r.deletionPolicy)

mutual

/-- The own texts of the inline resources in a resource, at any depth. -/
def inlineTexts : Resource → List String
  | ⟨_, _, _, _, _, ⟨properties⟩⟩ => inlineTextsProperties properties

def inlineTextsProperty : PropertyValue → List String
  | .plain _ => []
  | .nested _ member => member.ownTexts ++ inlineTexts member

def inlineTextsProperties : List (String × PropertyValue) → List String
  | [] => []
  | (_, property) :: rest => inlineTextsProperty property ++ inlineTextsProperties rest

end

theorem inlineTexts_of_isPlain {r : Resource} (h : r.IsPlain) : r.inlineTexts = [] := by
  obtain ⟨type, metadata, dependsOn, updatePolicy, deletionPolicy, ⟨properties⟩⟩ := r
  rw [inlineTexts]
  induction properties with
  | nil => rfl
  | cons entry rest ih =>
      have hrest := ih fun other ho => h other (List.mem_cons_of_mem entry ho)
      have hfirst := h entry List.mem_cons_self
      obtain ⟨name, property⟩ := entry
      cases property with
      | plain value => exact hrest
      | nested id member => cases hfirst

/-! ## Counting -/

theorem countTexts_toValue_eq (test : String → Bool) (r : Resource) :
    r.toValue.countTexts test = r.ownTexts.countP test +
      Value.countTextsEntries test (r.properties.map propertyValue).entries := by
  rw [toValue_eq, Value.countTexts_eq_countP, Value.countTextsEntries_eq_countP,
    ← List.countP_append]
  simp only [Value.texts, Value.textsEntries, Value.textsEntries_append,
    Value.textsEntries_optionalField, Value.textsEntries_mappingField, ownTexts,
    List.cons_append, List.nil_append, List.append_assoc]

mutual

/-- The texts of a value tree are those of the properties and the own texts of all resources. -/
theorem countTexts_toValue (test : String → Bool) : (r : Resource) →
    r.toValue.countTexts test =
      r.countTexts test + (r.ownTexts ++ r.inlineTexts).countP test
  | ⟨type, metadata, dependsOn, updatePolicy, deletionPolicy, ⟨properties⟩⟩ => by
      have hproperties := countTextsEntries_propertyValues test properties
      rw [propertyValues_eq_map] at hproperties
      rw [countTexts_toValue_eq, Table.map, hproperties, countTexts, inlineTexts,
        List.countP_append]
      omega

theorem countTexts_propertyValue (test : String → Bool) : (property : PropertyValue) →
    (propertyValue property).countTexts test =
      countTextsProperty test property + (inlineTextsProperty property).countP test
  | .plain _ => rfl
  | .nested _ member => countTexts_toValue test member

theorem countTextsEntries_propertyValues (test : String → Bool) :
    (properties : List (String × PropertyValue)) →
    Value.countTextsEntries test (propertyValues properties) =
      countTextsProperties test properties + (inlineTextsProperties properties).countP test
  | [] => rfl
  | (_, property) :: rest => by
      rw [propertyValues, Value.countTextsEntries, countTextsProperties, inlineTextsProperties,
        List.countP_append, countTexts_propertyValue test property,
        countTextsEntries_propertyValues test rest]
      omega

end

theorem countTexts_expand (test : String → Bool) (r : Resource) :
    r.expand.countTexts test = r.countTexts test + r.inlineTexts.countP test := by
  obtain ⟨type, metadata, dependsOn, updatePolicy, deletionPolicy, ⟨properties⟩⟩ := r
  have hplain (entries : List (String × PropertyValue)) : countTextsProperties test
      (entries.map fun entry => (entry.1, .plain (propertyValue entry.2))) =
        Value.countTextsEntries test (propertyValues entries) := by
    induction entries with
    | nil => rfl
    | cons entry rest ih =>
        rw [List.map_cons, countTextsProperties, ih, propertyValues, Value.countTextsEntries]
        rfl
  rw [expand, countTexts, countTexts, inlineTexts, ← countTextsEntries_propertyValues]
  exact hplain properties

/-! ## Changing -/

theorem field?_toValue (r : Resource) :
    r.toValue.field? "metadata" = r.metadata ∧ r.toValue.field? "depends_on" = r.dependsOn ∧
      r.toValue.field? "update_policy" = r.updatePolicy ∧
      r.toValue.field? "deletion_policy" = r.deletionPolicy := by
  simp [toValue_eq, Value.field?, Value.object?, Table.find?, List.lookup_cons,
    List.lookup_append]

theorem map_propertyValue_eq_of_toValue_eq {r s : Resource} (h : r.toValue = s.toValue) :
    r.properties.map propertyValue = s.properties.map propertyValue := by
  have hfield := congrArg (Value.field? · "properties") h
  simp only [field?_properties_toValue] at hfield
  have hempty {t : Resource} (ht : t.properties.isEmpty = true) :
      t.properties.map propertyValue = .empty := by
    rw [Table.map, List.isEmpty_iff.mp ht]
    rfl
  by_cases hr : r.properties.isEmpty = true
  · by_cases hs : s.properties.isEmpty = true
    · rw [hempty hr, hempty hs]
    · rw [if_pos hr, if_neg hs] at hfield
      cases hfield
  · by_cases hs : s.properties.isEmpty = true
    · rw [if_neg hr, if_pos hs] at hfield
      cases hfield
    · rw [if_neg hr, if_neg hs] at hfield
      exact Value.object.inj (Option.some.inj hfield)

/-- Value trees tell resources apart, up to their form. -/
theorem toValue_eq_toValue_iff {r s : Resource} : r.toValue = s.toValue ↔ r.expand = s.expand := by
  constructor
  · intro h
    have htype := congrArg (Value.field? · "type") h
    simp only [field?_type_toValue, Option.some.injEq, Value.string.injEq] at htype
    obtain ⟨hmetadata, hdependsOn, hupdate, hdeletion⟩ := h ▸ field?_toValue r
    obtain ⟨hmetadata', hdependsOn', hupdate', hdeletion'⟩ := field?_toValue s
    have hproperties := congrArg (Table.map PropertyValue.plain)
      (map_propertyValue_eq_of_toValue_eq h)
    rw [Table.map_map, Table.map_map] at hproperties
    rw [expand, expand, Resource.mk.injEq]
    exact ⟨htype, hmetadata.symm.trans hmetadata', hdependsOn.symm.trans hdependsOn',
      hupdate.symm.trans hupdate', hdeletion.symm.trans hdeletion', hproperties⟩
  · intro h
    rw [← toValue_expand, h, toValue_expand]

def changeAll (f : String → String) (r : Resource) : Resource where
  type := f r.type
  metadata := r.metadata.map (Value.mapTexts f)
  dependsOn := r.dependsOn.map (Value.mapTexts f)
  updatePolicy := r.updatePolicy.map (Value.mapTexts f)
  deletionPolicy := r.deletionPolicy.map (Value.mapTexts f)
  properties := r.properties.map fun property => .plain ((propertyValue property).mapTexts f)

theorem toValue_changeAll (f : String → String) (r : Resource) :
    (r.changeAll f).toValue = r.toValue.mapTexts f := by
  rw [toValue_eq, toValue_eq, Value.mapTexts, Value.mapTextsEntries_eq_map]
  simp only [List.map_cons, List.map_append, Value.map_optionalField, Value.map_mappingField,
    Value.mapTexts, changeAll, Table.map_map, propertyValue]

mutual

/-- The tree of a changed resource is the changed tree exactly if the change leaves the own texts of
all resources in it. -/
theorem toValue_mapTexts_iff (f : String → String) : (r : Resource) →
    ((r.mapTexts f).toValue = r.toValue.mapTexts f ↔
      ∀ text ∈ r.ownTexts ++ r.inlineTexts, f text = text)
  | ⟨type, metadata, dependsOn, updatePolicy, deletionPolicy, ⟨properties⟩⟩ => by
      have hproperties := propertyValues_mapTexts_iff f properties
      have htype : f type = type ↔ type = f type := eq_comm
      -- The changed tree is that of a resource, so that the two are compared setting by setting.
      rw [← toValue_changeAll, toValue_eq_toValue_iff, expand, expand, Resource.mk.injEq,
        mapTexts_eq, ownTexts, inlineTexts, List.cons_append, List.forall_mem_cons,
        List.forall_mem_append, ← hproperties]
      simp only [List.forall_mem_append, ← Value.eq_map_mapTexts_iff, changeAll,
        Table.map_map, Table.map_eq_map_iff, propertyValue, PropertyValue.plain.injEq, htype,
        and_assoc]

theorem propertyValue_mapTexts_iff (f : String → String) : (property : PropertyValue) →
    (propertyValue (mapTextsProperty f property) = (propertyValue property).mapTexts f ↔
      ∀ text ∈ inlineTextsProperty property, f text = text)
  | .plain _ => by simp [mapTextsProperty, propertyValue, inlineTextsProperty]
  | .nested _ member => toValue_mapTexts_iff f member

theorem propertyValues_mapTexts_iff (f : String → String) :
    (properties : List (String × PropertyValue)) →
    ((∀ entry ∈ properties, propertyValue (mapTextsProperty f entry.2) =
        (propertyValue entry.2).mapTexts f) ↔
      ∀ text ∈ inlineTextsProperties properties, f text = text)
  | [] => by simp [inlineTextsProperties]
  | (_, property) :: rest => by
      rw [inlineTextsProperties, List.forall_mem_append, List.forall_mem_cons,
        propertyValue_mapTexts_iff f property, propertyValues_mapTexts_iff f rest]

end

/-- Expanding and changing come to the same in either order exactly if the change leaves the own
texts of the inline resources. -/
theorem expand_mapTexts_expand_iff (f : String → String) (r : Resource) :
    (r.expand.mapTexts f).expand = (r.mapTexts f).expand ↔
      ∀ text ∈ r.inlineTexts, f text = text := by
  rw [expand_eq_self (r.isPlain_expand.mapTexts f), mapTexts_eq, mapTexts_eq, expand, expand,
    Resource.mk.injEq]
  simp only [Table.map_map, Table.map_eq_map_iff, mapTextsProperty, PropertyValue.plain.injEq,
    true_and]
  obtain ⟨type, metadata, dependsOn, updatePolicy, deletionPolicy, ⟨properties⟩⟩ := r
  rw [inlineTexts, ← propertyValues_mapTexts_iff]
  simp only [eq_comm]

end Resource

namespace Seed

/-- The own texts of the inline resources in resources that stand for no role. -/
def inlineTexts (t : Template) : List String :=
  (t.resources.entries.filter fun entry => !entry.2.isRole).flatMap fun entry =>
    entry.2.inlineTexts

theorem mem_inlineTexts_iff {t : Template} {text : String} :
    text ∈ inlineTexts t ↔
      ∃ entry ∈ t.resources.entries, entry.2.isRole = false ∧ text ∈ entry.2.inlineTexts := by
  simp [inlineTexts, and_assoc]

/-- Where inline resources stand in roles only, as in every plan, there are no such texts. -/
theorem inlineTexts_of_settled {t : Template}
    (ht : ∀ entry ∈ t.resources.entries, entry.2.Settled) : inlineTexts t = [] := by
  rw [List.eq_nil_iff_forall_not_mem]
  intro text htext
  obtain ⟨entry, he, hrole, hin⟩ := mem_inlineTexts_iff.mp htext
  rcases ht entry he with hsettled | hplain
  · rw [hrole] at hsettled
    cases hsettled
  · rw [Resource.inlineTexts_of_isPlain hplain] at hin
    cases hin

theorem countReferences_expand (role : String) (entries : List (String × Resource)) :
    countReferences role (entries.map fun entry => (entry.1, entry.2.expand)) =
      countReferences role entries +
        ((entries.filter fun entry => !entry.2.isRole).flatMap fun entry =>
          entry.2.inlineTexts).countP fun text => Text.sameIgnoringCase text role := by
  induction entries with
  | nil => rfl
  | cons entry rest ih =>
      rw [List.map_cons, countReferences, countReferences, ih, Resource.isRole_expand,
        Resource.countTexts_expand]
      cases hrole : entry.2.isRole with
      | true =>
          rw [List.filter_cons_of_neg (by simp [hrole]), if_pos rfl, if_pos rfl]
          omega
      | false =>
          rw [List.filter_cons_of_pos (by simp [hrole]), List.flatMap_cons, List.countP_append,
            if_neg Bool.false_ne_true, if_neg Bool.false_ne_true]
          omega

theorem count_updateReferences_expand (t : Template) (role id : String) :
    (updateReferences t.expand role id).1 = (updateReferences t role id).1 +
      (inlineTexts t).countP (Text.sameIgnoringCase · role) :=
  countReferences_expand role t.resources.entries

theorem expand_updateReferences_expand_iff (t : Template) (role id : String) :
    (updateReferences t.expand role id).2.expand = (updateReferences t role id).2.expand ↔
      ∀ text ∈ inlineTexts t, Text.sameIgnoringCase text role = true → text = id := by
  have hrename (text : String) : rename role id text = text ↔
      (Text.sameIgnoringCase text role = true → text = id) := by
    rw [rename]
    split <;> simp [*, eq_comm]
  simp only [updateReferences, mapTopLevel, Template.expand, Template.mk.injEq, Table.map_map,
    Table.map_eq_map_iff, true_and, and_true, ← hrename, mem_inlineTexts_iff]
  constructor
  · rintro h text ⟨entry, he, hrole, htext⟩
    have hentry := h entry he
    rw [Resource.isRole_expand, hrole] at hentry
    exact (Resource.expand_mapTexts_expand_iff _ _).mp hentry text htext
  · intro h entry he
    rw [Resource.isRole_expand]
    cases hrole : entry.2.isRole with
    | true => exact entry.2.expand_expand
    | false =>
        exact (Resource.expand_mapTexts_expand_iff _ _).mpr fun text htext =>
          h text ⟨entry, he, hrole, htext⟩

/-- Replacing references in the value trees of inline resources, too, goes further than replacing
them in the inline resources just where the own texts of these name the role: so many more texts are
counted, and the templates come out alike exactly if each such text is the id already. -/
theorem updateReferences_in_either_form (t : Template) (role id : String) :
    (updateReferences t.expand role id).1 = (updateReferences t role id).1 +
        (inlineTexts t).countP (Text.sameIgnoringCase · role) ∧
      ((updateReferences t.expand role id).2.expand = (updateReferences t role id).2.expand ↔
        ∀ text ∈ inlineTexts t, Text.sameIgnoringCase text role = true → text = id) ∧
      ((∀ text ∈ inlineTexts t, Text.sameIgnoringCase text role = false) →
        (updateReferences t.expand role id).1 = (updateReferences t role id).1 ∧
          (updateReferences t.expand role id).2.expand = (updateReferences t role id).2.expand ∧
          (updateReferences t.expand role id).2.compose =
            (updateReferences t role id).2.compose) := by
  have hcount := count_updateReferences_expand t role id
  have hsame := expand_updateReferences_expand_iff t role id
  refine ⟨hcount, hsame, fun hnone => ?_⟩
  have hzero : (inlineTexts t).countP (Text.sameIgnoringCase · role) = 0 :=
    List.countP_eq_zero.mpr fun text htext => by simp [hnone text htext]
  have hexpand := hsame.mpr fun text htext hnames => by simp [hnone text htext] at hnames
  refine ⟨by rw [hcount, hzero, Nat.add_zero], hexpand, ?_⟩
  rw [← Template.compose_expand, hexpand, Template.compose_expand]

/-- An inline resource that depends on one role and has two of them in a property. -/
def referringTemplate : Template :=
  let config : Resource := {
    type := "OS::Heat::SoftwareConfig"
    dependsOn := some (.string "Compute")
    properties := ⟨[("servers", .plain (.list [.string "compute", .string "STORAGE"]))]⟩ }
  { resources := ⟨[("deployment", {
      type := "OS::Heat::SoftwareDeployment"
      properties := ⟨[("config", .nested "config" config)]⟩ })]⟩ }

theorem updateReferences_in_either_form_referringTemplate :
    (∀ text ∈ inlineTexts referringTemplate, Text.sameIgnoringCase text "Storage" = false) ∧
      (updateReferences referringTemplate.expand "Storage" "storage-1-servers").1 = 1 ∧
      (updateReferences referringTemplate "Storage" "storage-1-servers").1 = 1 ∧
      (updateReferences referringTemplate.expand "Storage" "storage-1-servers").2.compose =
        (updateReferences referringTemplate "Storage" "storage-1-servers").2.compose := by
  have hnone : ∀ text ∈ inlineTexts referringTemplate,
      Text.sameIgnoringCase text "Storage" = false := by decide +kernel
  have hone : (updateReferences referringTemplate "Storage" "storage-1-servers").1 = 1 := by
    decide +kernel
  obtain ⟨-, -, halike⟩ :=
    updateReferences_in_either_form referringTemplate "Storage" "storage-1-servers"
  obtain ⟨hcount, -, hcompose⟩ := halike hnone
  exact ⟨hnone, hcount.trans hone, hone, hcompose⟩

/-- The dependency of the inline resource is replaced in its value tree only. -/
theorem dependency_left_referringTemplate :
    let inline := updateReferences referringTemplate "Compute" "compute-1-servers"
    let written := updateReferences referringTemplate.expand "Compute" "compute-1-servers"
    inline.1 = 1 ∧ written.1 = 2 ∧ written.2.expand ≠ inline.2.expand ∧
      written.2.compose ≠ inline.2.compose := by
  have hcompose :
      (updateReferences referringTemplate.expand "Compute" "compute-1-servers").2.compose ≠
        (updateReferences referringTemplate "Compute" "compute-1-servers").2.compose := by
    decide +kernel
  refine ⟨by decide +kernel, by decide +kernel, fun h => hcompose ?_, hcompose⟩
  rw [← Template.compose_expand, h, Template.compose_expand]

end Seed

end RolePlan
