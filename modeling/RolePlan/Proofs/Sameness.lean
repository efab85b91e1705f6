import Mathlib.Data.List.Nodup
import RolePlan.Proofs.Portable

/-!
# Equality up to order

Well-formed trees and resources are the same as themselves, and tables with the same entries are the
same in whatever orders they have them. So two plans are the same if each table of one has the
entries of the other's.
-/

namespace RolePlan

namespace Table

universe u

variable {α : Type u} {t u : Table α}

/-- Two maps have the same entries if they have the same values under all names. -/
theorem perm_of_find? (ht : t.Distinct) (hu : u.Distinct)
    (h : ∀ name value, t.find? name = some value ↔ u.find? name = some value) :
    t.entries.Perm u.entries := by
  have hmem : ∀ {v : Table α}, v.Distinct → ∀ entry,
      entry ∈ v.entries ↔ v.find? entry.1 = some entry.2 :=
    fun hv entry => ⟨find?_of_mem hv, mem_of_find?⟩
  refine (List.perm_ext_iff_of_nodup (List.Nodup.of_map _ ht) (List.Nodup.of_map _ hu)).mpr
    fun entry => ?_
  rw [hmem ht, hmem hu, h]

/-- Tables with the same entries are the same, where a value is the same as itself. -/
theorem sameBy_of_perm {same : α → α → Bool} (ht : t.Distinct) (h : t.entries.Perm u.entries)
    (hsame : ∀ entry ∈ t.entries, same entry.2 entry.2 = true) : t.sameBy same u = true := by
  rw [sameBy, Bool.and_eq_true, List.all_eq_true]
  refine ⟨beq_iff_eq.mpr h.length_eq, fun entry he => ?_⟩
  rw [find?_eq_of_perm ht h.symm, find?_of_mem ht he]
  exact hsame entry he

end Table

theorem Binary64.same_self (x : Binary64) : x.same x = true := by simp [same]

namespace Value

mutual

theorem same_self : {v : Value} → v.WellFormed → v.same v = true
  | .null, _ => rfl
  | .bool _, _ => by simp [same]
  | .int _, _ => by simp [same]
  | .float x, _ => x.same_self
  | .string _, _ => by simp [same]
  | .list _, h => by
      rw [same]
      exact sameItems_self h
  | .object ⟨entries⟩, h => by
      rw [same, Bool.and_eq_true]
      exact ⟨beq_self_eq_true _, sameEntries_of_mem h.2 fun entry => Table.find?_of_mem h.1⟩

theorem sameItems_self : {items : List Value} → WellFormedItems items →
    sameItems items items = true
  | [], _ => rfl
  | _ :: _, h => by rw [sameItems, same_self h.1, sameItems_self h.2, Bool.and_self]

theorem sameEntries_of_mem : {entries : List (String × Value)} → WellFormedEntries entries →
    {all : List (String × Value)} →
    (∀ entry ∈ entries, all.lookup entry.1 = some entry.2) → sameEntries entries all = true
  | [], _, _, _ => rfl
  | (name, v) :: rest, h, all, hall => by
      have hfirst : all.lookup name = some v := hall _ List.mem_cons_self
      rw [sameEntries, hfirst]
      dsimp only
      rw [same_self h.1, sameEntries_of_mem h.2 fun entry he =>
        hall entry (List.mem_cons_of_mem _ he), Bool.and_self]

end

theorem sameOptional_self {v : Option Value} (h : ∀ w ∈ v, w.WellFormed) :
    sameOptional v v = true := by
  cases v with
  | none => rfl
  | some w => exact same_self (h w rfl)

end Value

/-- Lists whose items are the same as themselves are compared item by item. -/
private theorem all_zip_self {α : Type} {same : α → α → Bool} {items : List α}
    (h : ∀ a ∈ items, same a a = true) :
    ((items.zip items).all fun (a, b) => same a b) = true := by
  induction items with
  | nil => rfl
  | cons a rest ih =>
      rw [List.forall_mem_cons] at h
      rw [List.zip_cons_cons, List.all_cons, Bool.and_eq_true]
      exact ⟨h.1, ih h.2⟩

theorem Constraint.same_self {c : Constraint} (h : c.definition.WellFormed) :
    c.same c = true := by
  simp [same, Value.same_self h]

theorem Parameter.same_self {p : Parameter} (h : p.WellFormed) : p.same p = true := by
  have hconstraints := all_zip_self fun (c : Constraint) (hc : c ∈ p.constraints) =>
    Constraint.same_self (h.constraints c hc)
  simp [same, hconstraints, Value.sameOptional_self h.default]

theorem ParameterGroup.same_self (g : ParameterGroup) : g.same g = true := by
  simp [same, contains]

theorem Output.same_self {o : Output} (h : o.value.WellFormed) : o.same o = true := by
  simp [same, Value.same_self h]

namespace Resource

private theorem forall_mem_of_optionalField {name : String} {v : Option Value}
    (h : ∀ entry ∈ optionalField name v, entry.2.WellFormed) : ∀ w ∈ v, w.WellFormed := by
  rintro w ⟨⟩
  exact h _ (List.mem_singleton_self _)

/-- The fields of a resource are well-formed if the mapping that it is written as is. -/
theorem wellFormed_of_toValue {r : Resource} (h : r.toValue.WellFormed) : r.WellFormed := by
  rw [toValue_eq] at h
  obtain ⟨-, hfields⟩ := Value.wellFormed_object_iff.mp h
  simp only [List.forall_mem_cons, List.forall_mem_append] at hfields
  obtain ⟨-, ⟨⟨⟨hmetadata, hdependsOn⟩, hupdatePolicy⟩, hdeletionPolicy⟩, hproperties⟩ := hfields
  have hmap : (Value.object (r.properties.map propertyValue)).WellFormed := by
    rw [mappingField] at hproperties
    split at hproperties
    · next hempty =>
        rw [Table.isEmpty, List.isEmpty_iff] at hempty
        exact Value.wellFormed_object_iff.mpr ⟨by simp [Table.Distinct, Table.names, hempty],
          by simp [hempty]⟩
    · exact hproperties _ (List.mem_singleton_self _)
  obtain ⟨hdistinct, hvalues⟩ := Value.wellFormed_object_iff.mp hmap
  rw [Table.Distinct, Table.names_map] at hdistinct
  exact ⟨forall_mem_of_optionalField hmetadata, forall_mem_of_optionalField hdependsOn,
    forall_mem_of_optionalField hupdatePolicy, forall_mem_of_optionalField hdeletionPolicy,
    hdistinct, fun entry he => hvalues _ (List.mem_map_of_mem he)⟩

mutual

theorem same_self : (r : Resource) → r.toValue.WellFormed → r.same r = true
  | ⟨type, metadata, dependsOn, updatePolicy, deletionPolicy, ⟨properties⟩⟩, h => by
      have hr := wellFormed_of_toValue h
      have hproperties := sameProperties_of_mem properties hr.properties
        fun entry => Table.find?_of_mem hr.distinct
      simp only [same, Value.sameOptional_self hr.metadata, Value.sameOptional_self hr.dependsOn,
        Value.sameOptional_self hr.updatePolicy, Value.sameOptional_self hr.deletionPolicy,
        hproperties, Table.size, beq_self_eq_true, Bool.and_self]

theorem sameProperty_self : (property : PropertyValue) → (propertyValue property).WellFormed →
    sameProperty property property = true
  | .plain _, h => Value.same_self h
  | .nested _ r, h => by rw [sameProperty, beq_self_eq_true, same_self r h, Bool.and_self]

theorem sameProperties_of_mem : (properties : List (String × PropertyValue)) →
    (∀ entry ∈ properties, (propertyValue entry.2).WellFormed) →
    {all : List (String × PropertyValue)} →
    (∀ entry ∈ properties, all.lookup entry.1 = some entry.2) →
      sameProperties properties all = true
  | [], _, _, _ => rfl
  | (name, property) :: rest, h, all, hall => by
      have hfirst : all.lookup name = some property := hall _ List.mem_cons_self
      rw [List.forall_mem_cons] at h
      rw [sameProperties, hfirst]
      dsimp only
      rw [sameProperty_self property h.1, sameProperties_of_mem rest h.2 fun entry he =>
        hall entry (List.mem_cons_of_mem _ he), Bool.and_self]

end

end Resource

/-- What a template says beside its tables. -/
def Template.header (t : Template) : String × Option String × List ParameterGroup :=
  (t.version, t.description, t.groups)

namespace Plan

/-- The same plan, with the entries of its tables in other orders. -/
structure Rearranges (p q : Plan) : Prop where
  header : p.template.header = q.template.header
  parameters : p.template.parameters.entries.Perm q.template.parameters.entries
  resources : p.template.resources.entries.Perm q.template.resources.entries
  outputs : p.template.outputs.entries.Perm q.template.outputs.entries
  values : p.environment.parameters.entries.Perm q.environment.parameters.entries
  registry : p.environment.registry.entries.Perm q.environment.registry.entries
  scaling : p.scaling = q.scaling

/-- A plan that can be stored is the same with the entries of its tables in other orders. -/
theorem Rearranges.same {p q : Plan} (h : p.Rearranges q) (hp : p.Portable) : p.same q = true := by
  have hwell := hp.template.wellFormed
  obtain ⟨hversion, hheader⟩ := Prod.mk.inj h.header
  obtain ⟨hdescription, hgroups⟩ := Prod.mk.inj hheader
  have hparameters := Table.sameBy_of_perm hwell.parameters h.parameters fun entry he =>
    Parameter.same_self (hwell.ofParameters entry he)
  have hresources := Table.sameBy_of_perm hwell.resources h.resources fun entry he =>
    entry.2.same_self (hwell.ofResources entry he).toValue
  have houtputs := Table.sameBy_of_perm hwell.outputs h.outputs fun entry he =>
    Output.same_self (hwell.ofOutputs entry he)
  have hvalues := Table.sameBy_of_perm hp.environment.parameters h.values fun entry he =>
    Value.same_self (hp.environment.values entry he)
  have hregistry := Table.sameBy_of_perm hp.environment.registry h.registry fun entry _ =>
    beq_self_eq_true entry.2
  have hall := all_zip_self fun (g : ParameterGroup) (_ : g ∈ p.template.groups) => g.same_self
  simp only [Plan.same, Template.same, Environment.same, ← hversion, ← hdescription, ← hgroups,
    ← h.scaling, hparameters, hresources, houtputs, hvalues, hregistry, hall, beq_self_eq_true,
    Bool.and_self]

end Plan

end RolePlan
