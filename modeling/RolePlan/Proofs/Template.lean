import RolePlan.Environment
import RolePlan.Proofs.Except
import RolePlan.Proofs.Table

/-!
# Adding to templates and environments

A name that is new is appended; one that is taken is refused with an error that tells its kind.
-/

namespace RolePlan

namespace Template

/-- No two entries of a table of the template share a name. -/
structure Distinct (t : Template) : Prop where
  parameters : t.parameters.Distinct
  resources : t.resources.Distinct
  outputs : t.outputs.Distinct

theorem add_of_not_mem {α : Type} {table : Table α} {name : String} (h : name ∉ table.names)
    (item : Item) (value : α) : add item table name value = .ok (table.extend [(name, value)]) := by
  simp [add, Table.add?_of_not_mem h]

theorem add_of_mem {α : Type} {table : Table α} {name : String} (h : name ∈ table.names)
    (item : Item) (value : α) : add item table name value = .error (.duplicate item name) := by
  simp [add, Table.add?_of_mem h]

theorem eq_extend_of_add {α : Type} {item : Item} {table table' : Table α} {name : String}
    {value : α} (h : add item table name value = .ok table') :
    name ∉ table.names ∧ table' = table.extend [(name, value)] := by
  by_cases hm : name ∈ table.names
  · rw [add_of_mem hm] at h
    cases h
  · rw [add_of_not_mem hm] at h
    cases h
    exact ⟨hm, rfl⟩

variable {t u : Template} {name : String}

theorem addParameter_of_not_mem (h : name ∉ t.parameters.names) (p : Parameter) :
    t.addParameter name p = .ok { t with parameters := t.parameters.extend [(name, p)] } := by
  rw [addParameter, add_of_not_mem h]
  rfl

theorem eq_of_addParameter {p : Parameter} (h : t.addParameter name p = .ok u) :
    name ∉ t.parameters.names ∧
      u = { t with parameters := t.parameters.extend [(name, p)] } := by
  obtain ⟨table, hadd, h⟩ := Proofs.bind_eq_ok h
  obtain ⟨hnew, rfl⟩ := eq_extend_of_add hadd
  cases h
  exact ⟨hnew, rfl⟩

theorem addResource_of_not_mem (h : name ∉ t.resources.names) (r : Resource) :
    t.addResource name r = .ok { t with resources := t.resources.extend [(name, r)] } := by
  rw [addResource, add_of_not_mem h]
  rfl

theorem eq_of_addResource {r : Resource} (h : t.addResource name r = .ok u) :
    name ∉ t.resources.names ∧ u = { t with resources := t.resources.extend [(name, r)] } := by
  obtain ⟨table, hadd, h⟩ := Proofs.bind_eq_ok h
  obtain ⟨hnew, rfl⟩ := eq_extend_of_add hadd
  cases h
  exact ⟨hnew, rfl⟩

theorem addOutput_of_not_mem (h : name ∉ t.outputs.names) (o : Output) :
    t.addOutput name o = .ok { t with outputs := t.outputs.extend [(name, o)] } := by
  rw [addOutput, add_of_not_mem h]
  rfl

theorem eq_of_addOutput {o : Output} (h : t.addOutput name o = .ok u) :
    name ∉ t.outputs.names ∧ u = { t with outputs := t.outputs.extend [(name, o)] } := by
  obtain ⟨table, hadd, h⟩ := Proofs.bind_eq_ok h
  obtain ⟨hnew, rfl⟩ := eq_extend_of_add hadd
  cases h
  exact ⟨hnew, rfl⟩

end Template

namespace Environment

variable {e f : Environment} {name : String}

theorem addParameter_of_not_mem (h : name ∉ e.parameters.names) (value : Value) :
    e.addParameter name value =
      .ok { e with parameters := e.parameters.extend [(name, value)] } := by
  rw [addParameter, Template.add_of_not_mem h]
  rfl

theorem eq_of_addParameter {value : Value} (h : e.addParameter name value = .ok f) :
    name ∉ e.parameters.names ∧
      f = { e with parameters := e.parameters.extend [(name, value)] } := by
  obtain ⟨table, hadd, h⟩ := Proofs.bind_eq_ok h
  obtain ⟨hnew, rfl⟩ := Template.eq_extend_of_add hadd
  cases h
  exact ⟨hnew, rfl⟩

end Environment

end RolePlan
