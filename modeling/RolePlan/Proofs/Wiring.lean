import RolePlan.Proofs.Contents

/-!
# Plans are fully wired

The parts of a role stand in five tables of two documents and refer to each other. Whatever edits a
plan has gone through, every reference leads to a part that is there, and every part belongs to a
role that the plan has: its last successful addition says what the parts are.
-/

namespace RolePlan.Plan

/-- The resource that stands for the role of a namespace: the member of its group, if there is a
group. -/
def memberOf (p : Plan) (ns : String) : Option Resource :=
  match p.template.resources.find? (Namespace.groupId ns) with
  | none => p.template.resources.find? (Namespace.resourceId ns)
  | some group =>
      match group.properties.find? Resource.definitionName with
      | some (.nested _ member) => some member
      | some (.plain _) => none
      | none => none

/-- The template declares the parameter, and the environment has a value for it. -/
def Declares (p : Plan) (name : String) : Prop :=
  name ∈ p.template.parameters.names ∧ name ∈ p.environment.parameters.names

/-- The parts of a role as it was added are all there and refer to each other; `member` stands for
the role. -/
structure Wires (p : Plan) (a : Addition) (member : Resource) : Prop where
  /-- The role has a group or a resource of its own, and not both. -/
  single : Xor (Namespace.resourceId a.ns ∈ p.template.resources.names)
    (Namespace.groupId a.ns ∈ p.template.resources.names)
  found : p.memberOf a.ns = some member
  type : member.type = Namespace.aliasOf a.ns
  file : p.environment.registry.find? (Namespace.aliasOf a.ns) = some a.filename
  literal : ∀ name ∈ a.role.parameters.names, ∀ v, a.overrides.find? name = some v →
    member.properties.find? name = some (.plain v)
  lookedUp : ∀ name ∈ a.role.parameters.names, name ∉ a.overrides.names →
    member.properties.find? name = some (.plain
        (.object ⟨[("get_param", .string (Namespace.apply a.ns name))]⟩)) ∧
      p.Declares (Namespace.apply a.ns name)
  overridden : ∀ name ∈ a.role.parameters.names, name ∈ a.overrides.names →
    ¬ (a.scaling = true ∧ name = Resource.countName) →
    Namespace.apply a.ns name ∉ p.template.parameters.names ∧
      Namespace.apply a.ns name ∉ p.environment.parameters.names
  count : ∀ group, p.template.resources.find? (Namespace.groupId a.ns) = some group →
    group.properties.find? Resource.countName = some (.plain
        (.object ⟨[("get_param", .string (Namespace.countName a.ns))]⟩)) ∧
      p.Declares (Namespace.countName a.ns)
  outputs : ∀ entry ∈ a.role.outputs.entries, ∃ id ∈ p.template.resources.names,
    (id = Namespace.resourceId a.ns ∨ id = Namespace.groupId a.ns) ∧
      p.template.outputs.find? (Namespace.apply a.ns entry.1) = some {
        value := .object ⟨[("get_attr", .list [.string id, .string entry.1])]⟩
        description := entry.2.description }

/-- Nothing in the plan is part of no role. -/
structure NoOrphans (p : Plan) (roles : List Addition) : Prop where
  parameters : ∀ name ∈ p.template.parameters.names,
    ∃ a ∈ roles, ∃ q, a.Offers q ∧ name = Namespace.apply a.ns q
  values : ∀ name ∈ p.environment.parameters.names,
    ∃ a ∈ roles, ∃ q, a.Offers q ∧ name = Namespace.apply a.ns q
  resources : ∀ id ∈ p.template.resources.names,
    ∃ a ∈ roles, id = Namespace.resourceId a.ns ∨ id = Namespace.groupId a.ns
  outputs : ∀ name ∈ p.template.outputs.names,
    ∃ a ∈ roles, ∃ q ∈ a.role.outputs.names, name = Namespace.apply a.ns q
  registry : ∀ name ∈ p.environment.registry.names, ∃ a ∈ roles, name = Namespace.aliasOf a.ns

/-! ## The resource of a role -/

theorem Addition.id_eq (a : Addition) :
    a.id = if a.scaling then Namespace.groupId a.ns else Namespace.resourceId a.ns := rfl

theorem names_roleResource (ns : String) (role : Template) (overrides : Table Value) :
    (roleResource ns role overrides).properties.names = role.parameters.names := by
  simp [roleResource, Table.names, Function.comp_def]

/-- Each parameter of a role is a property of its resource. -/
theorem find?_roleResource (ns : String) {role : Template} (hrole : role.Distinct)
    (overrides : Table Value) {name : String} (hname : name ∈ role.parameters.names) :
    (roleResource ns role overrides).properties.find? name =
      some (.plain (argument ns overrides name)) := by
  refine Table.find?_of_mem ?_ (List.mem_map.mpr ⟨name, hname, rfl⟩)
  rw [Table.Distinct, names_roleResource]
  exact hrole.parameters

namespace ConsistsOf

variable {p : Plan} {roles : List Addition} {a : Addition}

theorem distinct_resources (h : p.ConsistsOf roles) : p.template.resources.Distinct := by
  rw [Table.Distinct, h.names_resources]
  refine List.Nodup.map_on (fun a ha b hb he => ?_) (List.Nodup.of_map _ h.namespaces)
  exact h.eq_of_ns_eq ha hb (Addition.ns_eq_of_id_eq he)

theorem distinct_registry (h : p.ConsistsOf roles) : p.environment.registry.Distinct := by
  rw [Table.Distinct, h.names_registry]
  exact h.namespaces.map fun _ _ he => Namespace.aliasOf_inj.mp he

/-- Outputs of different roles lie in different namespaces. -/
theorem distinct_outputs (h : p.ConsistsOf roles) : p.template.outputs.Distinct := by
  rw [Table.Distinct, Table.names, h.outputs, List.map_flatMap, List.nodup_flatMap]
  constructor
  · intro a ha
    have hnames : a.passed.map (·.1) = a.role.outputs.names.map (Namespace.apply a.ns) := by
      simp [Addition.passed, passed, Table.names]
    rw [hnames]
    exact List.Nodup.map (fun _ _ he => Namespace.apply_inj.mp he) (h.distinct a ha).outputs
  · refine List.Pairwise.imp_of_mem (fun {a b} ha hb hne => ?_) (List.pairwise_map.mp h.namespaces)
    intro name hma hmb
    exact hne ((h.simple a ha).eq_of_owns (h.simple b hb) (owns_passed hma) (owns_passed hmb))

theorem find?_id (h : p.ConsistsOf roles) (ha : a ∈ roles) :
    p.template.resources.find? a.id = some a.resource := by
  refine Table.find?_of_mem h.distinct_resources ?_
  rw [h.resources]
  exact List.mem_map.mpr ⟨a, ha, rfl⟩

/-- Of the two ids that the role of a namespace can have, only its own is taken. -/
theorem eq_id_of_isRoleId (h : p.ConsistsOf roles) (ha : a ∈ roles) {id : String}
    (hid : isRoleId a.ns id = true) (hm : id ∈ p.template.resources.names) : id = a.id := by
  rw [h.names_resources] at hm
  obtain ⟨b, hb, rfl⟩ := List.mem_map.mp hm
  by_cases hn : a.ns = b.ns
  · rw [h.eq_of_ns_eq ha hb hn]
  · rw [Addition.id, isRoleId_roleId_of_ne b.setting hn] at hid
    cases hid

theorem id_mem (h : p.ConsistsOf roles) (ha : a ∈ roles) :
    a.id ∈ p.template.resources.names := by
  rw [h.names_resources]
  exact List.mem_map_of_mem ha

theorem xor_id_mem (h : p.ConsistsOf roles) (ha : a ∈ roles) :
    Xor (Namespace.resourceId a.ns ∈ p.template.resources.names)
      (Namespace.groupId a.ns ∈ p.template.resources.names) := by
  have hin := h.id_mem ha
  rw [Addition.id_eq] at hin
  have hne : Namespace.resourceId a.ns ≠ Namespace.groupId a.ns :=
    Namespace.resourceId_ne_groupId a.ns a.ns
  by_cases hs : a.scaling = true
  · rw [if_pos hs] at hin
    refine .inr ⟨hin, fun hm => hne ?_⟩
    have he := h.eq_id_of_isRoleId ha (by simp [isRoleId]) hm
    rwa [Addition.id_eq, if_pos hs] at he
  · rw [if_neg hs] at hin
    refine .inl ⟨hin, fun hm => hne ?_⟩
    have he := h.eq_id_of_isRoleId ha (by simp [isRoleId]) hm
    rw [Addition.id_eq, if_neg hs] at he
    exact he.symm

theorem memberOf_eq (h : p.ConsistsOf roles) (ha : a ∈ roles) :
    p.memberOf a.ns = some (roleResource a.ns a.role a.overrides) := by
  have hfound := h.find?_id ha
  rw [Addition.id_eq, Addition.resource, roleEntry] at hfound
  have hscaling : a.setting.scaling = a.scaling := rfl
  rw [hscaling] at hfound
  rw [memberOf]
  by_cases hs : a.scaling = true
  · rw [if_pos hs, if_pos hs] at hfound
    rw [hfound]
    rfl
  · have hnone : p.template.resources.find? (Namespace.groupId a.ns) = none := by
      rw [Table.find?_eq_none_iff]
      intro hm
      have he := h.eq_id_of_isRoleId ha (by simp [isRoleId]) hm
      rw [Addition.id_eq, if_neg hs] at he
      exact Namespace.resourceId_ne_groupId a.ns a.ns he.symm
    rw [if_neg hs, if_neg hs] at hfound
    rw [hnone, hfound]

/-- A group counts its members by a parameter that the plan declares. -/
theorem count_of_group (h : p.ConsistsOf roles) (ha : a ∈ roles) {group : Resource}
    (hgroup : p.template.resources.find? (Namespace.groupId a.ns) = some group) :
    group.properties.find? Resource.countName =
        some (.plain (lookup (Namespace.countName a.ns))) ∧ a.Offers Resource.countName := by
  have he := h.eq_id_of_isRoleId ha (by simp [isRoleId]) (Table.mem_names_of_find? hgroup)
  have hs : a.scaling = true := by
    by_contra hs
    rw [Addition.id_eq, if_neg hs] at he
    exact Namespace.resourceId_ne_groupId a.ns a.ns he.symm
  have hfound := h.find?_id ha
  rw [← he, hgroup] at hfound
  have hresource : a.resource =
      groupAround a.ns a.id (roleResource a.ns a.role a.overrides) := by
    rw [Addition.resource, roleEntry]
    exact if_pos hs
  rw [Option.some.inj hfound, hresource]
  exact ⟨rfl, .inr ⟨hs, rfl⟩⟩

theorem find?_output (h : p.ConsistsOf roles) (ha : a ∈ roles) {entry : String × Output}
    (he : entry ∈ a.role.outputs.entries) :
    p.template.outputs.find? (Namespace.apply a.ns entry.1) =
      some (passedOutput a.id entry.1 entry.2) := by
  refine Table.find?_of_mem h.distinct_outputs ?_
  rw [h.outputs, List.mem_flatMap]
  exact ⟨a, ha, List.mem_map.mpr ⟨entry, he, rfl⟩⟩

/-! ## From the contents to the references -/

theorem declares_apply_iff (h : p.ConsistsOf roles) (ha : a ∈ roles) {q : String} :
    p.Declares (Namespace.apply a.ns q) ↔ a.Offers q := by
  rw [Declares, h.values, and_self, h.apply_mem_parameters_iff ha]

theorem id_eq_or (a : Addition) :
    a.id = Namespace.resourceId a.ns ∨ a.id = Namespace.groupId a.ns := by
  rw [Addition.id_eq]
  by_cases hs : a.scaling = true
  · exact .inr (if_pos hs)
  · exact .inl (if_neg hs)

theorem wires (h : p.ConsistsOf roles) (ha : a ∈ roles) :
    p.Wires a (roleResource a.ns a.role a.overrides) := by
  have hproperty {name : String} (hname : name ∈ a.role.parameters.names) :=
    find?_roleResource a.ns (h.distinct a ha) a.overrides hname
  refine ⟨h.xor_id_mem ha, h.memberOf_eq ha, rfl, ?_, ?_, ?_, ?_, ?_, ?_⟩
  · refine Table.find?_of_mem h.distinct_registry ?_
    rw [h.registry]
    exact List.mem_map.mpr ⟨a, ha, rfl⟩
  · intro name hname v hv
    rw [hproperty hname, argument, hv]
    rfl
  · intro name hname hover
    refine ⟨?_, (h.declares_apply_iff ha).mpr (.inl ⟨hname, hover⟩)⟩
    rw [hproperty hname, argument, Table.find?_eq_none_iff.mpr hover]
    rfl
  · intro name _ hover hcount
    have hno : ¬ a.Offers name := by
      rintro (⟨-, hnot⟩ | hyes)
      · exact hnot hover
      · exact hcount hyes
    rw [h.values, h.apply_mem_parameters_iff ha]
    exact ⟨hno, hno⟩
  · intro group hgroup
    obtain ⟨hcount, hoffers⟩ := h.count_of_group ha hgroup
    exact ⟨hcount, (h.declares_apply_iff ha).mpr hoffers⟩
  · intro entry he
    exact ⟨a.id, h.id_mem ha, id_eq_or a, h.find?_output ha he⟩

theorem noOrphans (h : p.ConsistsOf roles) : p.NoOrphans roles := by
  refine ⟨fun name => h.mem_parameters_iff.mp, ?_, ?_, fun name => h.mem_outputs_iff.mp, ?_⟩
  · rw [h.values]
    exact fun name => h.mem_parameters_iff.mp
  · rw [h.names_resources]
    intro id hm
    obtain ⟨a, ha, rfl⟩ := List.mem_map.mp hm
    exact ⟨a, ha, id_eq_or a⟩
  · rw [h.names_registry, List.map_map]
    intro name hm
    obtain ⟨a, ha, rfl⟩ := List.mem_map.mp hm
    exact ⟨a, ha, rfl⟩

end ConsistsOf

/-! ## Runs -/

/-- The run made the addition, with success, and did not remove its namespace afterwards. -/
def Addition.LastOf (a : Addition) (es : List Edit) : Prop :=
  ∃ before after, es = before ++ a.edit :: after ∧
    a.edit.succeeds (runEdits before {}) = true ∧ (runEdits before {}).scaling = a.scaling ∧
    .removeRole a.ns ∉ after

theorem Addition.LastOf.append {a : Addition} {es : List Edit} (h : a.LastOf es) {e : Edit}
    (he : e ≠ .removeRole a.ns) : a.LastOf (es ++ [e]) := by
  obtain ⟨before, after, rfl, hsucceeds, hscaling, hkept⟩ := h
  refine ⟨before, after ++ [e], by simp, hsucceeds, hscaling, fun hm => ?_⟩
  rcases List.mem_append.mp hm with hm | hm
  · exact hkept hm
  · exact he (List.mem_singleton.mp hm).symm

/-- A run leaves a plan that consists of the roles it added last and did not remove. -/
theorem exists_consistsOf_runEdits {es : List Edit} (hes : ∀ e ∈ es, e.Proper) :
    ∃ roles, (∀ a ∈ roles, a.LastOf es) ∧ (runEdits es {}).ConsistsOf roles := by
  -- The run grows at its end: each edit acts on the plan that those before it leave.
  induction es using List.reverseRecOn with
  | nil => exact ⟨[], by simp, .nil {} rfl rfl rfl rfl⟩
  | append_singleton es e ih =>
      obtain ⟨hes, he⟩ := List.forall_mem_append.mp hes
      replace he : e.Proper := he e List.mem_cons_self
      obtain ⟨roles, hlast, h⟩ := ih hes
      rw [runEdits_append, runEdits_cons, runEdits_nil]
      cases hs : e.succeeds (runEdits es {}) with
      | false =>
          rw [Edit.run_of_fails he hs]
          refine ⟨roles, fun a ha => (hlast a ha).append ?_, h⟩
          rintro rfl
          cases hs
      | true =>
          cases e with
          | withScaling scaling =>
              exact ⟨roles, fun a ha => (hlast a ha).append (by simp), h.withScaling scaling⟩
          | removeRole ns =>
              refine ⟨roles.filter (·.ns != ns), fun a ha => ?_, h.removeRole he⟩
              obtain ⟨ha, hne⟩ := List.mem_filter.mp ha
              refine (hlast a ha).append fun heq => bne_iff_ne.mp hne ?_
              exact (Edit.removeRole.inj heq).symm
          | setValue name value =>
              obtain ⟨hrun, hsucc⟩ := Edit.setValue_on (runEdits es {}) name value
              rw [hsucc] at hs
              rw [hrun, if_pos hs]
              exact ⟨roles, fun a ha => (hlast a ha).append (by simp),
                h.withValue (Table.contains_iff_mem_names.mp hs) value⟩
          | addRole ns role filename overrides =>
              obtain ⟨hfree, hrun⟩ := Edit.free_of_addRole_succeeds he.2 hs
              rw [hrun]
              refine ⟨_, ?_, h.withRole he.1 he.2 hfree filename overrides⟩
              rw [List.forall_mem_append]
              refine ⟨fun a ha => (hlast a ha).append (by simp), ?_⟩
              rw [List.forall_mem_singleton]
              exact ⟨es, [], rfl, hs, rfl, List.not_mem_nil⟩

/-- After any run of edits, the roles of the plan are those that were added last and not removed;
the parts of each are there as they were added and refer to each other, and nothing else is. -/
theorem fully_wired {es : List Edit} (hes : ∀ e ∈ es, e.Proper) :
    let p := runEdits es {}
    ∃ roles : List Addition,
      p.roleNamespaces = roles.map (·.ns) ∧
      (∀ a ∈ roles, a.LastOf es ∧ ∃ member, p.Wires a member) ∧
      p.NoOrphans roles := by
  obtain ⟨roles, hlast, h⟩ := exists_consistsOf_runEdits hes
  exact ⟨roles, h.roleNamespaces_eq, fun a ha => ⟨hlast a ha, _, h.wires ha⟩, h.noOrphans⟩

/-- A role with a count of its own comes back after its removal, once in a group and with its count
overridden, and once more by itself in another namespace. -/
def rewiredEdits : List Edit :=
  let role : Template :=
    { parameters := ⟨[("image", { type := "string" }), ("count", { type := "number" })]⟩
      outputs := ⟨[("ip", { value := .string "address" })]⟩ }
  [.addRole "a" role "old.yaml" ⟨[("count", .int 2)]⟩, .removeRole "a",
    .addRole "a" role "new.yaml" ⟨[("count", .int 3)]⟩, .withScaling false,
    .addRole "b" role "b.yaml" .empty, .setValue "b::count" (.int 5)]

theorem fully_wired_rewiredEdits :
    (∀ e ∈ rewiredEdits, e.Proper) ∧
      let p := runEdits rewiredEdits {}
      ∃ roles : List Addition,
        roles.map (·.ns) = ["a", "b"] ∧
        (∀ a ∈ roles, a.LastOf rewiredEdits ∧ ∃ member, p.Wires a member) ∧
        p.NoOrphans roles := by
  have hproper : ∀ e ∈ rewiredEdits, e.Proper := by
    have ha : Namespace.Simple "a" := by decide
    have hb : Namespace.Simple "b" := by decide
    simp only [rewiredEdits, List.forall_mem_cons, Edit.Proper]
    refine ⟨⟨ha, ?_⟩, ha, ⟨ha, ?_⟩, trivial, ⟨hb, ?_⟩, trivial, by simp⟩
    all_goals exact ⟨by decide, by decide, by decide⟩
  obtain ⟨roles, hroles, hwired⟩ := fully_wired hproper
  have hnames : (runEdits rewiredEdits {}).roleNamespaces = ["a", "b"] := by decide +kernel
  exact ⟨hproper, roles, hroles.symm.trans hnames, hwired⟩

end RolePlan.Plan
