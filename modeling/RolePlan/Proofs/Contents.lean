import Mathlib.Data.List.Induction
import Mathlib.Data.List.Nodup
import RolePlan.Proofs.Edit

/-!
# What a plan consists of

A plan that is made by edits consists of its roles, one after another in every table. A role is
known as it was added, with the scaling of that time: later edits of the plan take it away as a
whole or change no more of it than values of the environment.
-/

namespace RolePlan.Plan

structure Addition where
  ns : String
  role : Template
  filename : String
  overrides : Table Value
  /-- The role was wrapped in a group. -/
  scaling : Bool

namespace Addition

variable (a : Addition)

def edit : Edit := .addRole a.ns a.role a.filename a.overrides

def setting : Plan := { scaling := a.scaling }

def id : String := a.setting.roleId a.ns

def resource : Resource := a.setting.roleEntry a.ns a.role a.overrides

def declared : List (String × Parameter) := a.setting.declared a.ns a.role a.overrides

def passed : List (String × Output) := a.setting.passed a.ns a.role

/-- The plan declares a parameter for the name: the role has one that is not overridden, or the
name counts the members of the group around the role. -/
def Offers (name : String) : Prop :=
  (name ∈ a.role.parameters.names ∧ name ∉ a.overrides.names) ∨
    (a.scaling = true ∧ name = Resource.countName)

variable {a} {b : Addition}

theorem ns_eq_of_id_eq (h : a.id = b.id) : a.ns = b.ns := by
  by_contra hne
  have hown : isRoleId a.ns a.id = true := isRoleId_roleId a.setting a.ns
  rw [h, id, isRoleId_roleId_of_ne b.setting hne] at hown
  cases hown

theorem mem_names_renamed {ns name : String} {overrides : Table Value}
    {entries : List (String × Parameter)} :
    name ∈ (renamed ns overrides entries).map (·.1) ↔
      ∃ q, (q ∈ entries.map (·.1) ∧ q ∉ overrides.names) ∧ name = Namespace.apply ns q := by
  simp only [renamed, List.map_map, List.mem_map, List.mem_filter, Function.comp_apply,
    Bool.not_eq_true', Table.contains_eq_false_iff]
  constructor
  · rintro ⟨entry, ⟨he, ho⟩, rfl⟩
    exact ⟨entry.1, ⟨⟨entry, he, rfl⟩, ho⟩, rfl⟩
  · rintro ⟨q, ⟨⟨entry, he, rfl⟩, ho⟩, rfl⟩
    exact ⟨entry, ⟨he, ho⟩, rfl⟩

theorem mem_names_declared {name : String} :
    name ∈ a.declared.map (·.1) ↔ ∃ q, a.Offers q ∧ name = Namespace.apply a.ns q := by
  have hcount : name ∈ (if a.scaling then [(Namespace.countName a.ns, countParameter)]
      else []).map (·.1) ↔ a.scaling = true ∧ name = Namespace.countName a.ns := by
    by_cases hs : a.scaling = true <;> simp [hs]
  rw [declared, Plan.declared, List.map_append, List.mem_append, mem_names_renamed]
  refine (or_congr_right hcount).trans ⟨?_, ?_⟩
  · rintro (⟨q, hq, rfl⟩ | ⟨hs, rfl⟩)
    · exact ⟨q, .inl hq, rfl⟩
    · exact ⟨Resource.countName, .inr ⟨hs, rfl⟩, rfl⟩
  · rintro ⟨q, hq | ⟨hs, rfl⟩, rfl⟩
    · exact .inl ⟨q, hq, rfl⟩
    · exact .inr ⟨hs, rfl⟩

theorem mem_names_passed {name : String} :
    name ∈ a.passed.map (·.1) ↔
      ∃ q ∈ a.role.outputs.names, name = Namespace.apply a.ns q := by
  simp only [passed, Plan.passed, Table.names, List.map_map, List.mem_map, Function.comp_apply]
  constructor
  · rintro ⟨entry, he, rfl⟩
    exact ⟨entry.1, ⟨entry, he, rfl⟩, rfl⟩
  · rintro ⟨q, ⟨entry, he, rfl⟩, rfl⟩
    exact ⟨entry, he, rfl⟩

end Addition

/-- Every table of the plan holds the parts of these roles, in the order of their additions, and
nothing else. -/
structure ConsistsOf (p : Plan) (roles : List Addition) : Prop where
  parameters : p.template.parameters.entries = roles.flatMap Addition.declared
  values : p.environment.parameters.names = p.template.parameters.names
  resources : p.template.resources.entries = roles.map fun a => (a.id, a.resource)
  outputs : p.template.outputs.entries = roles.flatMap Addition.passed
  registry : p.environment.registry.entries =
    roles.map fun a => (Namespace.aliasOf a.ns, a.filename)
  namespaces : (roles.map (·.ns)).Nodup
  simple : ∀ a ∈ roles, Namespace.Simple a.ns
  distinct : ∀ a ∈ roles, a.role.Distinct

namespace ConsistsOf

variable {p : Plan} {roles : List Addition}

/-! ## The names in the plan -/

theorem mem_parameters_iff (h : p.ConsistsOf roles) {name : String} :
    name ∈ p.template.parameters.names ↔
      ∃ a ∈ roles, ∃ q, a.Offers q ∧ name = Namespace.apply a.ns q := by
  rw [Table.names, h.parameters, List.map_flatMap, List.mem_flatMap]
  exact exists_congr fun a => and_congr_right fun _ => Addition.mem_names_declared

theorem mem_outputs_iff (h : p.ConsistsOf roles) {name : String} :
    name ∈ p.template.outputs.names ↔
      ∃ a ∈ roles, ∃ q ∈ a.role.outputs.names, name = Namespace.apply a.ns q := by
  rw [Table.names, h.outputs, List.map_flatMap, List.mem_flatMap]
  exact exists_congr fun a => and_congr_right fun _ => Addition.mem_names_passed

theorem names_resources (h : p.ConsistsOf roles) :
    p.template.resources.names = roles.map Addition.id := by
  rw [Table.names, h.resources, List.map_map]
  rfl

theorem names_registry (h : p.ConsistsOf roles) :
    p.environment.registry.names = (roles.map (·.ns)).map Namespace.aliasOf := by
  rw [Table.names, h.registry, List.map_map, List.map_map]
  rfl

theorem roleNamespaces_eq (h : p.ConsistsOf roles) : p.roleNamespaces = roles.map (·.ns) := by
  have hread : Namespace.ofAlias? ∘ Namespace.aliasOf = some := funext Namespace.ofAlias?_aliasOf
  rw [roleNamespaces, h.names_registry, List.filterMap_map, hread, List.filterMap_some]

/-- Each namespace has one role. -/
theorem eq_of_ns_eq (h : p.ConsistsOf roles) {a b : Addition} (ha : a ∈ roles) (hb : b ∈ roles)
    (hns : a.ns = b.ns) : a = b :=
  List.inj_on_of_nodup_map h.namespaces ha hb hns

/-- Of the names in the namespace of a role, the plan declares those that the role offers. -/
theorem apply_mem_parameters_iff (h : p.ConsistsOf roles) {a : Addition} (ha : a ∈ roles)
    {q : String} : Namespace.apply a.ns q ∈ p.template.parameters.names ↔ a.Offers q := by
  rw [h.mem_parameters_iff]
  refine ⟨fun ⟨b, hb, r, hr, heq⟩ => ?_, fun hq => ⟨a, ha, q, hq, rfl⟩⟩
  have hown : Namespace.owns b.ns (Namespace.apply a.ns q) = true :=
    heq ▸ Namespace.owns_apply b.ns r
  have hns : a.ns = b.ns :=
    (h.simple a ha).eq_of_owns (h.simple b hb) (Namespace.owns_apply a.ns q) hown
  cases h.eq_of_ns_eq ha hb hns
  rwa [Namespace.apply_inj.mp heq]

theorem free (h : p.ConsistsOf roles) {ns : String} (hns : Namespace.Simple ns)
    (hnew : ns ∉ roles.map (·.ns)) : p.Free ns := by
  have hne : ∀ a ∈ roles, a.ns ≠ ns := fun a ha he => hnew (he ▸ List.mem_map_of_mem ha)
  have hapart : ∀ a ∈ roles, ∀ name, Namespace.owns ns (Namespace.apply a.ns name) = false :=
    fun a ha name => (h.simple a ha).owns_eq_false hns (hne a ha) (Namespace.owns_apply a.ns name)
  have hid : ∀ id ∈ p.template.resources.names, isRoleId ns id = false := by
    intro id hm
    rw [h.names_resources] at hm
    obtain ⟨a, ha, rfl⟩ := List.mem_map.mp hm
    exact isRoleId_roleId_of_ne a.setting fun he => hne a ha he.symm
  have hparameters : ∀ name ∈ p.template.parameters.names, Namespace.owns ns name = false := by
    intro name hm
    obtain ⟨a, ha, q, -, rfl⟩ := h.mem_parameters_iff.mp hm
    exact hapart a ha q
  refine ⟨?_, fun hm => ?_, fun hm => ?_, hparameters, h.values ▸ hparameters, ?_⟩
  · rw [h.names_registry]
    intro hm
    obtain ⟨other, hother, he⟩ := List.mem_map.mp hm
    exact hnew (Namespace.aliasOf_inj.mp he ▸ hother)
  · simpa [isRoleId] using hid _ hm
  · simpa [isRoleId] using hid _ hm
  · intro name hm
    obtain ⟨a, ha, q, -, rfl⟩ := h.mem_outputs_iff.mp hm
    exact hapart a ha q

theorem not_mem_of_free (h : p.ConsistsOf roles) {ns : String} (hfree : p.Free ns) :
    ns ∉ roles.map (·.ns) := by
  intro hm
  refine hfree.registry ?_
  rw [h.names_registry]
  exact List.mem_map_of_mem hm

/-! ## Edits -/

theorem nil (p : Plan) (hparameters : p.template.parameters = .empty)
    (hresources : p.template.resources = .empty) (houtputs : p.template.outputs = .empty)
    (henvironment : p.environment = {}) : p.ConsistsOf [] := by
  constructor <;> simp [hparameters, hresources, houtputs, henvironment]

theorem withRole (h : p.ConsistsOf roles) {ns : String} (hns : Namespace.Simple ns)
    {role : Template} (hrole : role.Distinct) (hfree : p.Free ns) (filename : String)
    (overrides : Table Value) :
    (p.withRole ns role filename overrides).ConsistsOf
      (roles ++ [⟨ns, role, filename, overrides, p.scaling⟩]) := by
  constructor
  · rw [List.flatMap_append, ← h.parameters, List.flatMap_singleton]
    rfl
  · rw [Plan.withRole, Table.names_extend, Table.names_extend, map_fst_firstValues, h.values]
  · rw [List.map_append, ← h.resources]
    rfl
  · rw [List.flatMap_append, ← h.outputs, List.flatMap_singleton]
    rfl
  · rw [List.map_append, ← h.registry]
    rfl
  · rw [List.map_append, List.map_singleton, List.nodup_append]
    refine ⟨h.namespaces, by simp, fun a ha b hb he => h.not_mem_of_free hfree ?_⟩
    rw [List.mem_singleton] at hb
    exact (he.trans hb : a = ns) ▸ ha
  · rw [List.forall_mem_append]
    exact ⟨h.simple, by simpa using hns⟩
  · rw [List.forall_mem_append]
    exact ⟨h.distinct, by simpa using hrole⟩

/-- A filter that tells whole blocks apart takes away whole blocks. -/
private theorem filter_flatMap_of_uniform {α β : Type} {f : α → List β} {test : β → Bool}
    {kept : α → Bool} {items : List α} (h : ∀ a ∈ items, ∀ b ∈ f a, test b = kept a) :
    (items.flatMap f).filter test = (items.filter kept).flatMap f := by
  induction items with
  | nil => rfl
  | cons a rest ih =>
      have hrest := ih fun other ho => h other (List.mem_cons_of_mem a ho)
      have hfirst := h a List.mem_cons_self
      rw [List.flatMap_cons, List.filter_append, hrest]
      by_cases hk : kept a = true
      · have hall : (f a).filter test = f a :=
          List.filter_eq_self.mpr fun b hb => (hfirst b hb).trans hk
        rw [hall, List.filter_cons_of_pos hk, List.flatMap_cons]
      · have hnone : (f a).filter test = [] :=
          List.filter_eq_nil_iff.mpr fun b hb => by rwa [hfirst b hb]
        rw [hnone, List.filter_cons_of_neg hk, List.nil_append]

/-- The names of a role belong to a namespace all together or not at all. -/
theorem not_owns_eq (h : p.ConsistsOf roles) {ns : String} (hns : Namespace.Simple ns)
    {a : Addition} (ha : a ∈ roles) {name : String} (hname : Namespace.owns a.ns name = true) :
    (!Namespace.owns ns name) = (a.ns != ns) := by
  by_cases hn : a.ns = ns
  · subst hn
    simp [hname]
  · simp [hn, (h.simple a ha).owns_eq_false hns hn hname]

theorem removeRole (h : p.ConsistsOf roles) {ns : String} (hns : Namespace.Simple ns) :
    (p.removeRole ns).ConsistsOf (roles.filter (·.ns != ns)) := by
  have hin : ∀ a ∈ roles.filter (·.ns != ns), a ∈ roles := fun a ha => (List.mem_filter.mp ha).1
  have hids : ∀ a ∈ roles, (!isRoleId ns a.id) = (a.ns != ns) := by
    intro a ha
    by_cases hn : a.ns = ns
    · subst hn
      rw [Addition.id, isRoleId_roleId]
      simp
    · have hid : isRoleId ns a.id = false :=
        isRoleId_roleId_of_ne a.setting fun he => hn he.symm
      simp [hn, hid]
  rw [removeRole_eq]
  constructor
  · dsimp only [Table.keep]
    rw [h.parameters]
    exact filter_flatMap_of_uniform fun a ha entry he =>
      h.not_owns_eq hns ha (owns_declared (List.mem_map_of_mem he))
  · rw [Table.names_keep, Table.names_keep, h.values]
  · dsimp only [Table.keep]
    rw [h.resources, List.filter_map]
    exact congrArg _ (List.filter_congr hids)
  · dsimp only [Table.keep]
    rw [h.outputs]
    exact filter_flatMap_of_uniform fun a ha entry he =>
      h.not_owns_eq hns ha (owns_passed (List.mem_map_of_mem he))
  · dsimp only [Table.keep]
    rw [h.registry, List.filter_map]
    refine congrArg _ (List.filter_congr fun a _ => ?_)
    rw [Function.comp_apply, Bool.eq_iff_iff, bne_iff_ne, bne_iff_ne]
    exact not_congr Namespace.aliasOf_inj
  · exact h.namespaces.sublist (List.filter_sublist.map _)
  · exact fun a ha => h.simple a (hin a ha)
  · exact fun a ha => h.distinct a (hin a ha)

theorem withValues (h : p.ConsistsOf roles) {values : Table Value}
    (hnames : values.names = p.environment.parameters.names) :
    ({ p with environment := { p.environment with parameters := values } } : Plan).ConsistsOf
      roles :=
  ⟨h.parameters, hnames.trans h.values, h.resources, h.outputs, h.registry, h.namespaces, h.simple,
    h.distinct⟩

theorem withValue (h : p.ConsistsOf roles) {name : String}
    (hname : name ∈ p.environment.parameters.names) (value : Value) :
    (p.withValue name value).ConsistsOf roles :=
  h.withValues (Table.names_put_of_mem hname value)

theorem withScaling (h : p.ConsistsOf roles) (scaling : Bool) :
    (p.withScaling scaling).ConsistsOf roles :=
  ⟨h.parameters, h.values, h.resources, h.outputs, h.registry, h.namespaces, h.simple, h.distinct⟩

end ConsistsOf

end RolePlan.Plan
