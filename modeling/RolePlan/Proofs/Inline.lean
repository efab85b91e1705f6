import RolePlan.Proofs.Expand
import RolePlan.Proofs.Field
import RolePlan.Proofs.Seed

/-!
# Seeds in either form

A seed can hold its inline resources as such or as the value trees that stand for them. Each
question about a role has the same answer in both forms, and what is copied out of the seed is the
same but for the form of the resources.
-/

namespace RolePlan

namespace Resource

/-! ## Reading a value tree of a resource -/

theorem field?_type_toValue (r : Resource) : r.toValue.field? "type" = some (.string r.type) := by
  rw [toValue_eq]
  rfl

theorem field?_properties_toValue (r : Resource) : r.toValue.field? "properties" =
    if r.properties.isEmpty then none else some (.object (r.properties.map propertyValue)) := by
  have hempty : (r.properties.map propertyValue).isEmpty = r.properties.isEmpty := by
    simp [Table.isEmpty, Table.map]
  rw [toValue_eq, Value.field?, Value.object?, Option.bind_some, Table.find?, ← hempty]
  simp [List.lookup_cons, List.lookup_append]

/-- The value tree of a resource is no look-up: its first field is the type. -/
theorem lookedUp?_toValue (r : Resource) : r.toValue.lookedUp? = none := by
  rw [toValue_eq]
  simp [Value.lookedUp?]

theorem lookedUp?_propertyValue (property : PropertyValue) :
    (propertyValue property).lookedUp? = (plain? property).bind Value.lookedUp? := by
  cases property with
  | plain value => rfl
  | nested id member => exact member.lookedUp?_toValue

/-! ## Roles -/

/-- A member that is written without properties has none. -/
theorem memberProperties_expand (r : Resource) :
    r.expand.memberProperties = r.memberProperties := by
  rw [memberProperties, memberProperties, expand, Table.find?_map]
  cases r.properties.find? definitionName with
  | none => rfl
  | some property =>
      cases property with
      | plain value => rfl
      | nested id member =>
          rw [Option.map_some, propertyValue]
          dsimp only
          rw [field?_properties_toValue]
          obtain ⟨type, metadata, dependsOn, updatePolicy, deletionPolicy, ⟨properties⟩⟩ := member
          cases properties <;> rfl

theorem roleLookups_expand (r : Resource) : r.expand.roleLookups = r.roleLookups := by
  rw [roleLookups, roleLookups, memberProperties_expand]
  simp only [expand, Table.map, List.filterMap_map, Function.comp_def, plain?, Option.bind_some,
    lookedUp?_propertyValue]

end Resource

theorem Template.entries_resources_expand (t : Template) : t.expand.resources.entries =
    t.resources.entries.map fun entry => (entry.1, entry.2.expand) := rfl

/-- The form of a new resource is all that its addition leaves different. -/
theorem Template.map_expand_addResource (t : Template) (id : String) (r : Resource) :
    (t.addResource id r).map expand = t.expand.addResource id r.expand := by
  by_cases h : id ∈ t.resources.names
  · rw [addResource, add_of_mem h, addResource, add_of_mem (t.names_resources_expand ▸ h)]
    rfl
  · rw [addResource_of_not_mem h, addResource_of_not_mem (t.names_resources_expand ▸ h)]
    simp only [Except.map, expand, Table.map_extend, List.map_singleton]

theorem Template.map_expand_addOutput (t : Template) (name : String) (o : Output) :
    (t.addOutput name o).map expand = t.expand.addOutput name o := by
  change (add .output t.outputs name o >>= fun _ => _).map _ = add .output t.outputs name o >>= _
  cases add .output t.outputs name o <;> rfl

theorem Template.map_expand_addParameter (t : Template) (name : String) (p : Parameter) :
    (t.addParameter name p).map expand = t.expand.addParameter name p := by
  change (add .parameter t.parameters name p >>= fun _ => _).map _ =
    add .parameter t.parameters name p >>= _
  cases add .parameter t.parameters name p <;> rfl

namespace Seed

/-! ## What is copied -/

theorem roleParameters_expand (seed : Template) :
    roleParameters seed.expand = roleParameters seed := by
  simp only [roleParameters, roles, Template.entries_resources_expand, List.filter_map,
    Function.comp_def, Resource.isRole_expand, List.flatMap_map, Resource.roleLookups_expand]

theorem addParameters_expand (seed t : Template) (e : Environment) :
    addParameters seed.expand t e = addParameters seed t e := by
  rw [addParameters, addParameters, roleParameters_expand]
  rfl

theorem map_expand_addResource (t : Template) (entry : String × Resource) :
    (addResource t entry).map Template.expand =
      addResource t.expand (entry.1, entry.2.expand) := by
  rw [addResource, addResource, Resource.isRole_expand, Template.expand, Table.contains_map]
  split
  · rfl
  · exact t.map_expand_addResource entry.1 entry.2

/-- Copying commutes with expanding, of what is copied and of what it is copied into. -/
theorem map_expand_addResources (seed t : Template) :
    (addResources seed t).map Template.expand = addResources seed.expand t.expand :=
  Proofs.map_foldlM map_expand_addResource seed.resources.entries t

theorem map_expand_addOutput (t : Template) (entry : String × Output) :
    (addOutput t entry).map Template.expand = addOutput t.expand entry := by
  have hcontains : t.expand.outputs.contains entry.1 = t.outputs.contains entry.1 := rfl
  rw [addOutput, addOutput, hcontains]
  split
  · rfl
  · exact t.map_expand_addOutput entry.1 entry.2

theorem map_expand_addOutputs (seed t : Template) :
    (addOutputs seed t).map Template.expand = addOutputs seed t.expand := by
  rw [addOutputs, Proofs.map_foldlM (k := id) map_expand_addOutput, List.map_id]
  rfl

theorem map_expand_addParameter (excluded : List String) (target : Template × Environment)
    (entry : String × Parameter) :
    (addParameter excluded target entry).map (Prod.map Template.expand id) =
      addParameter excluded (target.1.expand, target.2) entry := by
  obtain ⟨t, e⟩ := target
  have hcontains : t.expand.parameters.contains entry.1 = t.parameters.contains entry.1 := rfl
  rw [addParameter, addParameter, hcontains]
  split
  · rfl
  · rw [← t.map_expand_addParameter entry.1 entry.2]
    cases t.addParameter entry.1 entry.2 with
    | error fault => rfl
    | ok u =>
        change Except.map _ (if e.parameters.contains entry.1 = true then _ else _) =
          if e.parameters.contains entry.1 = true then _ else _
        split
        · rfl
        · cases e.addParameter entry.1 entry.2.initialValue <;> rfl

theorem map_expand_addParameters (seed t : Template) (e : Environment) :
    (addParameters seed t e).map (Prod.map Template.expand id) =
      addParameters seed t.expand e := by
  rw [addParameters, Proofs.map_foldlM (k := id) (map_expand_addParameter _), List.map_id]
  rfl

/-! ## What is fixed for a role -/

theorem candidates_expand (seed : Template) (role : String) : candidates seed.expand role =
    (candidates seed role).map fun entry => (entry.1, entry.2.expand) := by
  rw [candidates, Template.entries_resources_expand, List.filter_map]
  rfl

theorem fixedProperties?_expand (seed : Template) (role : String) :
    fixedProperties? seed.expand role = fixedProperties? seed role := by
  rw [fixedProperties?, fixedProperties?, candidates_expand]
  match candidates seed role with
  | [] => rfl
  | [entry] =>
      simp only [List.map_cons, List.map_nil]
      rw [Resource.memberProperties_expand]
  | first :: second :: rest => simp [Function.comp_def]

/-- A seed answers alike in both forms: which resources stand for roles, what it fixes for a role,
and, up to the form of the resources, what a template and an environment have once it is copied. -/
theorem answers_in_either_form (seed : Template) :
    seed.expand.resources.map Resource.isRole = seed.resources.map Resource.isRole ∧
      (∀ role, fixedProperties? seed.expand role = fixedProperties? seed role) ∧
      (∀ t, ∃ u v, addResources seed t = .ok u ∧ addResources seed.expand t = .ok v ∧
        v.expand = u.expand) ∧
      (∀ t e, ∃ target, addParameters seed t e = .ok target ∧
        addParameters seed.expand t e = .ok target) ∧
      ∀ t, ∃ u, addOutputs seed t = .ok u ∧ addOutputs seed.expand t = .ok u := by
  refine ⟨?_, fixedProperties?_expand seed, fun t => ?_, fun t e => ?_, fun t => ?_⟩
  · rw [Template.expand, Table.map_map]
    simp only [Resource.isRole_expand]
  · obtain ⟨u, hu, -⟩ := exists_addResources seed t
    obtain ⟨v, hv, -⟩ := exists_addResources seed.expand t
    refine ⟨u, v, hu, hv, ?_⟩
    -- Both copies expand to the copy of the expanded seed into the expanded template.
    have h := map_expand_addResources seed.expand t
    rw [Template.expand_expand, ← map_expand_addResources seed t, hu, hv] at h
    exact Except.ok.inj h
  · obtain ⟨target, htarget, -⟩ := names_addParameters seed t e
    exact ⟨target, htarget, by rw [addParameters_expand, htarget]⟩
  · obtain ⟨u, hu, -⟩ := exists_addOutputs seed t
    exact ⟨u, hu, hu⟩

end Seed

end RolePlan
