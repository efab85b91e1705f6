import RolePlan.Plan
import RolePlan.Proofs.Table
import RolePlan.Seed

/-!
# Inline resources and their value trees

A template can hold a resource inline or as the value tree that stands for it. Both are written
alike, and both are roles or neither is. Expanding turns the first form into the second, and does
no more than that.
-/

namespace RolePlan

namespace Resource

theorem propertyValues_eq_map (entries : List (String × PropertyValue)) :
    propertyValues entries = entries.map fun entry => (entry.1, propertyValue entry.2) := by
  induction entries with
  | nil => rfl
  | cons entry rest ih => rw [propertyValues, ih, List.map_cons]

/-- The value tree of a resource, with the names of its fields. -/
theorem toValue_eq (r : Resource) :
    r.toValue = .object ⟨("type", .string r.type) :: (optionalField "metadata" r.metadata ++
      optionalField "depends_on" r.dependsOn ++ optionalField "update_policy" r.updatePolicy ++
      optionalField "deletion_policy" r.deletionPolicy ++
      mappingField "properties" (r.properties.map propertyValue))⟩ := by
  obtain ⟨type, metadata, dependsOn, updatePolicy, deletionPolicy, ⟨properties⟩⟩ := r
  rw [toValue, propertyValues_eq_map]
  rfl

theorem toValue_expand (r : Resource) : r.expand.toValue = r.toValue := by
  rw [toValue_eq, toValue_eq, expand, Table.map_map]
  rfl

@[simp] theorem expand_expand (r : Resource) : r.expand.expand = r.expand := by
  simp only [expand, Table.map_map]
  rfl

/-- All properties are value trees already. -/
def IsPlain (r : Resource) : Prop := ∀ entry ∈ r.properties.entries, (plain? entry.2).isSome = true

theorem expand_eq_self {r : Resource} (h : r.IsPlain) : r.expand = r := by
  have hsame : (r.properties.map fun property => PropertyValue.plain (propertyValue property)) =
      r.properties := by
    refine Table.map_eq_self fun entry he => ?_
    have hplain := h entry he
    generalize entry.2 = property at hplain
    cases property with
    | plain value => rfl
    | nested id member => cases hplain
  rw [expand, hsame]
  cases r
  rfl

/-- A group that holds value trees only has a member with properties, or else there are none. -/
theorem memberProperties_of_isPlain {r : Resource} (h : r.IsPlain) :
    r.memberProperties = .empty ∨ ∃ fields : Table Value,
      (definitionName, .plain (.object fields)) ∈ r.properties.entries ∧
        ("properties", .object r.memberProperties) ∈ fields.entries := by
  rw [memberProperties]
  cases hdefinition : r.properties.find? definitionName with
  | none => exact .inl rfl
  | some property =>
      have hentry := Table.mem_of_find? hdefinition
      have hplain := h _ hentry
      cases property with
      | nested id member => cases hplain
      | plain definition =>
          cases definition with
          | object fields =>
              dsimp only [Value.field?, Value.object?, Option.bind_some]
              cases hproperties : fields.find? "properties" with
              | none => exact .inl rfl
              | some v =>
                  cases v with
                  | object properties =>
                      exact .inr ⟨fields, hentry, Table.mem_of_find? hproperties⟩
                  | _ => exact .inl rfl
          | _ => exact .inl rfl

theorem isPlain_expand (r : Resource) : r.expand.IsPlain := by
  intro entry he
  obtain ⟨old, -, rfl⟩ := List.mem_map.mp he
  rfl

theorem memberType?_expand (r : Resource) : r.expand.memberType? = r.memberType? := by
  simp only [memberType?, expand, Table.find?_map]
  cases r.properties.find? definitionName with
  | none => rfl
  | some property =>
      cases property with
      | plain value => rfl
      | nested id member =>
          rw [Option.map_some, propertyValue, toValue_eq]
          rfl

theorem isRole_expand (r : Resource) : r.expand.isRole = r.isRole := by
  rw [isRole, memberType?_expand]
  rfl

end Resource

namespace Template

@[simp] theorem expand_expand (t : Template) : t.expand.expand = t.expand := by
  simp only [expand, Table.map_map, Resource.expand_expand]

@[simp] theorem names_resources_expand (t : Template) :
    t.expand.resources.names = t.resources.names := Table.names_map _ _

theorem toDocument_expand (t : Template) : t.expand.toDocument = t.toDocument := by
  have hresources : t.expand.resources.map Resource.toValue =
      t.resources.map Resource.toValue := by
    rw [expand, Table.map_map]
    simp only [Resource.toValue_expand]
  rw [toDocument, hresources]
  rfl

end Template

namespace Plan

/-- The same plan with every inline resource written out as a value tree. -/
def expand (p : Plan) : Plan := { p with template := p.template.expand }

@[simp] theorem expand_expand (p : Plan) : p.expand.expand = p.expand := by
  rw [expand, expand, Template.expand_expand]

theorem compose_expand (p : Plan) : p.expand.compose = p.compose := by
  simp only [compose, Template.compose, expand, Template.toDocument_expand]

end Plan

end RolePlan
