import RolePlan.Environment
import RolePlan.Proofs.Expand
import RolePlan.Proofs.Field
import RolePlan.Proofs.Template

/-!
# Well-formed templates and environments

In a well-formed document no table gives a name twice, on whatever level. The settings that would
be lost when it is written and read again are named apart from that.
-/

namespace RolePlan

theorem Value.wellFormed_ofList {entries : List (String × Value)}
    (h : ∀ entry ∈ entries, entry.2.WellFormed) :
    (Value.object (Table.ofList entries)).WellFormed :=
  Value.wellFormed_object_iff.mpr (Table.ofList_keeps (P := Value.WellFormed) h)

/-- A section is well-formed if its entries are and no two of them share a name. -/
theorem Value.wellFormed_object_map {α : Type} {t : Table α} {f : α → Value} (ht : t.Distinct)
    (h : ∀ entry ∈ t.entries, (f entry.2).WellFormed) : (Value.object (t.map f)).WellFormed := by
  refine Value.wellFormed_object_iff.mpr ⟨ht.map f, fun entry he => ?_⟩
  obtain ⟨old, ho, rfl⟩ := List.mem_map.mp he
  exact h old ho

namespace Parameter

structure WellFormed (p : Parameter) : Prop where
  default : ∀ v ∈ p.default, v.WellFormed
  constraints : ∀ c ∈ p.constraints, c.definition.WellFormed

/-- A default of null would read like none, and a constraint of the type `description` like one
without a type. -/
structure Storable (p : Parameter) : Prop where
  default : p.default ≠ some .null
  constraints : ∀ c ∈ p.constraints, c.type ≠ "description"

theorem WellFormed.initialValue {p : Parameter} (h : p.WellFormed) : p.initialValue.WellFormed := by
  rw [Parameter.initialValue]
  cases hd : p.default with
  | none => trivial
  | some v => exact h.default v hd

theorem WellFormed.toValue {p : Parameter} (h : p.WellFormed) : p.toValue.WellFormed := by
  have hconstraints : ∀ v ∈ p.constraints.map Constraint.toValue, v.WellFormed := by
    intro v hv
    obtain ⟨c, hc, rfl⟩ := List.mem_map.mp hv
    exact Value.wellFormed_ofList (List.forall_mem_cons.mpr
      ⟨h.constraints c hc, (Fits.optionalText c.description "description").values⟩)
  have hhidden : ∀ v ∈ p.hidden.map Value.bool, v.WellFormed := by
    cases p.hidden <;> simp [Value.WellFormed]
  have hfits := ((((Fits.optionalText p.description "description").append
    (.optionalText p.label "label")).append (.optionalField h.default "default")).append
    (.optionalField hhidden "hidden")).append (.listField hconstraints "constraints")
  exact (hfits.cons (Value.wellFormed_string p.type) "type").wellFormed (by decide)

end Parameter

theorem ParameterGroup.nodup_add {g : ParameterGroup} (h : g.parameters.Nodup) (name : String) :
    (g.add name).parameters.Nodup := by
  rw [add]
  split
  · exact h
  · next hc =>
      rw [contains, List.contains_eq_mem, decide_eq_true_iff] at hc
      refine List.nodup_append.mpr ⟨h, by simp, fun a ha b hb hab => ?_⟩
      exact hc (List.mem_singleton.mp hb ▸ hab ▸ ha)

theorem ParameterGroup.wellFormed_toValue (g : ParameterGroup) : g.toValue.WellFormed := by
  have hmembers : (Value.list (g.parameters.map .string)).WellFormed := by
    rw [Value.wellFormed_list_iff]
    intro v hv
    obtain ⟨name, -, rfl⟩ := List.mem_map.mp hv
    trivial
  have hfits := (Fits.optionalText g.description "description").append
    (Fits.nil.cons hmembers "parameters")
  exact (hfits.cons (Value.wellFormed_string g.label) "label").wellFormed (by decide)

namespace Resource

structure WellFormed (r : Resource) : Prop where
  metadata : ∀ v ∈ r.metadata, v.WellFormed
  dependsOn : ∀ v ∈ r.dependsOn, v.WellFormed
  updatePolicy : ∀ v ∈ r.updatePolicy, v.WellFormed
  deletionPolicy : ∀ v ∈ r.deletionPolicy, v.WellFormed
  distinct : r.properties.Distinct
  properties : ∀ entry ∈ r.properties.entries, (propertyValue entry.2).WellFormed

/-- A setting of null would read like none. -/
structure Storable (r : Resource) : Prop where
  metadata : r.metadata ≠ some .null
  dependsOn : r.dependsOn ≠ some .null
  updatePolicy : r.updatePolicy ≠ some .null
  deletionPolicy : r.deletionPolicy ≠ some .null

theorem WellFormed.toValue {r : Resource} (h : r.WellFormed) : r.toValue.WellFormed := by
  have hfits := ((((Fits.optionalField h.metadata "metadata").append
    (.optionalField h.dependsOn "depends_on")).append
    (.optionalField h.updatePolicy "update_policy")).append
    (.optionalField h.deletionPolicy "deletion_policy")).append
    (.mappingField (Value.wellFormed_object_map h.distinct h.properties) "properties")
  rw [toValue_eq]
  exact (hfits.cons (Value.wellFormed_string r.type) "type").wellFormed (by decide)

theorem WellFormed.expand {r : Resource} (h : r.WellFormed) : r.expand.WellFormed := by
  refine ⟨h.metadata, h.dependsOn, h.updatePolicy, h.deletionPolicy, h.distinct.map _, ?_⟩
  intro entry he
  obtain ⟨old, ho, rfl⟩ := List.mem_map.mp he
  exact h.properties old ho

theorem WellFormed.setProperty {r : Resource} (h : r.WellFormed) (name : String)
    {property : PropertyValue} (hproperty : (propertyValue property).WellFormed) :
    (r.setProperty name property).WellFormed := by
  refine ⟨h.metadata, h.dependsOn, h.updatePolicy, h.deletionPolicy, h.distinct.put name _, ?_⟩
  intro entry he
  rcases Table.mem_entries_put he with he | rfl
  · exact h.properties entry he
  · exact hproperty

theorem Storable.expand {r : Resource} (h : r.Storable) : r.expand.Storable :=
  ⟨h.metadata, h.dependsOn, h.updatePolicy, h.deletionPolicy⟩

end Resource

theorem Output.wellFormed_toValue {o : Output} (h : o.value.WellFormed) : o.toValue.WellFormed :=
  ((Fits.optionalText o.description "description").cons h "value").wellFormed (by decide)

namespace Template

structure WellFormed (t : Template) : Prop extends Distinct t where
  ofParameters : ∀ entry ∈ t.parameters.entries, entry.2.WellFormed
  ofGroups : ∀ g ∈ t.groups, g.parameters.Nodup
  ofResources : ∀ entry ∈ t.resources.entries, entry.2.WellFormed
  ofOutputs : ∀ entry ∈ t.outputs.entries, entry.2.value.WellFormed

/-- Nothing in the template gets lost when it is written and read again. -/
structure Storable (t : Template) : Prop where
  ofParameters : ∀ entry ∈ t.parameters.entries, entry.2.Storable
  ofResources : ∀ entry ∈ t.resources.entries, entry.2.Storable

section Adding

variable {t u : Template} {name : String}

theorem wellFormed_new (version : String) (description : Option String) :
    ({ version, description } : Template).WellFormed :=
  ⟨⟨List.nodup_nil, List.nodup_nil, List.nodup_nil⟩, by simp, by simp, by simp, by simp⟩

theorem WellFormed.addParameter (ht : t.WellFormed) {p : Parameter} (hp : p.WellFormed)
    (h : t.addParameter name p = .ok u) : u.WellFormed := by
  obtain ⟨hnew, rfl⟩ := eq_of_addParameter h
  exact ⟨⟨ht.parameters.extend hnew p, ht.resources, ht.outputs⟩,
    Table.forall_mem_extend ht.ofParameters hp, ht.ofGroups, ht.ofResources, ht.ofOutputs⟩

theorem WellFormed.addGroup (ht : t.WellFormed) {g : ParameterGroup} (hg : g.parameters.Nodup) :
    (t.addGroup g).WellFormed := by
  refine ⟨⟨ht.parameters, ht.resources, ht.outputs⟩, ht.ofParameters, ?_, ht.ofResources,
    ht.ofOutputs⟩
  exact List.forall_mem_append.mpr ⟨ht.ofGroups, by simpa using hg⟩

theorem WellFormed.addResource (ht : t.WellFormed) {r : Resource} (hr : r.WellFormed)
    (h : t.addResource name r = .ok u) : u.WellFormed := by
  obtain ⟨hnew, rfl⟩ := eq_of_addResource h
  exact ⟨⟨ht.parameters, ht.resources.extend hnew r, ht.outputs⟩, ht.ofParameters, ht.ofGroups,
    Table.forall_mem_extend ht.ofResources hr, ht.ofOutputs⟩

theorem WellFormed.addOutput (ht : t.WellFormed) {o : Output} (ho : o.value.WellFormed)
    (h : t.addOutput name o = .ok u) : u.WellFormed := by
  obtain ⟨hnew, rfl⟩ := eq_of_addOutput h
  exact ⟨⟨ht.parameters, ht.resources, ht.outputs.extend hnew o⟩, ht.ofParameters, ht.ofGroups,
    ht.ofResources, Table.forall_mem_extend ht.ofOutputs ho⟩

end Adding

theorem WellFormed.toDocument {t : Template} (h : t.WellFormed) :
    (Value.object t.toDocument).WellFormed := by
  have hparameters := Value.wellFormed_object_map (f := Parameter.toValue) h.parameters
    fun entry he => (h.ofParameters entry he).toValue
  have hgroups : ∀ v ∈ t.groups.map ParameterGroup.toValue, v.WellFormed := by
    intro v hv
    obtain ⟨g, -, rfl⟩ := List.mem_map.mp hv
    exact g.wellFormed_toValue
  have hresources := Value.wellFormed_object_map (f := Resource.toValue) h.resources
    fun entry he => (h.ofResources entry he).toValue
  have houtputs := Value.wellFormed_object_map (f := Output.toValue) h.outputs
    fun entry he => Output.wellFormed_toValue (h.ofOutputs entry he)
  have hfits := ((((Fits.optionalText t.description "description").append
    (.mappingField hparameters "parameters")).append
    (.listField hgroups "parameter_groups")).append
    (Fits.nil.cons hresources "resources")).append (.mappingField houtputs "outputs")
  exact (hfits.cons (Value.wellFormed_string t.version) "heat_template_version").wellFormed
    (by decide)

end Template

namespace Environment

structure WellFormed (e : Environment) : Prop where
  parameters : e.parameters.Distinct
  registry : e.registry.Distinct
  values : ∀ entry ∈ e.parameters.entries, entry.2.WellFormed

theorem WellFormed.toDocument {e : Environment} (h : e.WellFormed) :
    (Value.object e.toDocument).WellFormed := by
  have hvalues := Value.wellFormed_object_iff.mpr ⟨h.parameters, h.values⟩
  have hregistry := Value.wellFormed_object_map (f := Value.string) h.registry
    fun entry _ => Value.wellFormed_string entry.2
  exact ((Fits.nil.cons hregistry "resource_registry").cons hvalues "parameters").wellFormed
    (by decide)

end Environment

end RolePlan
