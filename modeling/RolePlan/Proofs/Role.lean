import RolePlan.Proofs.Change
import RolePlan.Proofs.Namespace
import RolePlan.Proofs.Template

/-!
# Adding and removing a role

In a free namespace all names that a role brings along are new, so that adding it appends to every
table of the plan and cannot stop halfway. A namespace is free exactly if removing it changes
nothing. Removing a role that was just added gives the plan before it.
-/

namespace RolePlan.Plan

/-- Nothing in the plan bears a name that belongs to the namespace. -/
structure Free (p : Plan) (ns : String) : Prop where
  registry : Namespace.aliasOf ns ∉ p.environment.registry.names
  resource : Namespace.resourceId ns ∉ p.template.resources.names
  group : Namespace.groupId ns ∉ p.template.resources.names
  parameters : ∀ name ∈ p.template.parameters.names, Namespace.owns ns name = false
  values : ∀ name ∈ p.environment.parameters.names, Namespace.owns ns name = false
  outputs : ∀ name ∈ p.template.outputs.names, Namespace.owns ns name = false

theorem isFree_iff {p : Plan} {ns : String} : p.isFree ns = true ↔ p.Free ns := by
  simp only [isFree, Bool.not_eq_true', Bool.or_eq_false_iff, Table.contains_eq_false_iff,
    List.any_eq_false, Bool.not_eq_true]
  constructor
  · rintro ⟨⟨⟨⟨⟨hr, hs⟩, hg⟩, hp⟩, hv⟩, ho⟩
    exact ⟨hr, hs, hg, hp, hv, ho⟩
  · rintro ⟨hr, hs, hg, hp, hv, ho⟩
    exact ⟨⟨⟨⟨⟨hr, hs⟩, hg⟩, hp⟩, hv⟩, ho⟩

theorem Free.roleId {p : Plan} {ns : String} (h : p.Free ns) :
    p.roleId ns ∉ p.template.resources.names := by
  unfold Plan.roleId
  split
  · exact h.group
  · exact h.resource

/-- A name in a free namespace is new to a table whose names are all outside. -/
theorem Free.apply_not_mem {ns : String} {names : List String}
    (h : ∀ name ∈ names, Namespace.owns ns name = false) (name : String) :
    Namespace.apply ns name ∉ names := by
  intro hm
  have := h _ hm
  rw [Namespace.owns_apply] at this
  exact absurd this (by decide)

/-! ## What a role brings along -/

def renamed (ns : String) (overrides : Table Value) (entries : List (String × Parameter)) :
    List (String × Parameter) :=
  (entries.filter (!overrides.contains ·.1)).map fun entry =>
    (Namespace.apply ns entry.1, entry.2)

def declared (p : Plan) (ns : String) (role : Template) (overrides : Table Value) :
    List (String × Parameter) :=
  renamed ns overrides role.parameters.entries ++
    if p.scaling then [(Namespace.countName ns, countParameter)] else []

def passed (p : Plan) (ns : String) (role : Template) : List (String × Output) :=
  role.outputs.entries.map fun entry =>
    (Namespace.apply ns entry.1, passedOutput (p.roleId ns) entry.1 entry.2)

def firstValues (entries : List (String × Parameter)) : List (String × Value) :=
  entries.map fun entry => (entry.1, entry.2.initialValue)

def withParameters (p : Plan) (entries : List (String × Parameter)) : Plan :=
  { p with
    template := { p.template with parameters := p.template.parameters.extend entries }
    environment := { p.environment with
      parameters := p.environment.parameters.extend (firstValues entries) } }

def withOutputs (p : Plan) (entries : List (String × Output)) : Plan :=
  { p with template := { p.template with outputs := p.template.outputs.extend entries } }

def withRole (p : Plan) (ns : String) (role : Template) (filename : String)
    (overrides : Table Value) : Plan :=
  { p with
    template := { p.template with
      parameters := p.template.parameters.extend (p.declared ns role overrides)
      resources := p.template.resources.extend [(p.roleId ns, p.roleEntry ns role overrides)]
      outputs := p.template.outputs.extend (p.passed ns role) }
    environment := {
      parameters := p.environment.parameters.extend (firstValues (p.declared ns role overrides))
      registry := p.environment.registry.extend [(Namespace.aliasOf ns, filename)] } }

@[simp] theorem withParameters_nil (p : Plan) : p.withParameters [] = p := by
  simp [withParameters, firstValues]

theorem withParameters_append (p : Plan) (xs ys : List (String × Parameter)) :
    (p.withParameters xs).withParameters ys = p.withParameters (xs ++ ys) := by
  simp [withParameters, firstValues, Table.extend_extend]

@[simp] theorem withOutputs_nil (p : Plan) : p.withOutputs [] = p := by
  simp [withOutputs]

theorem withOutputs_append (p : Plan) (xs ys : List (String × Output)) :
    (p.withOutputs xs).withOutputs ys = p.withOutputs (xs ++ ys) := by
  simp [withOutputs, Table.extend_extend]

theorem map_fst_firstValues (entries : List (String × Parameter)) :
    (firstValues entries).map (·.1) = entries.map (·.1) := by
  simp [firstValues, Function.comp_def]

theorem owns_declared {p : Plan} {ns : String} {role : Template} {overrides : Table Value}
    {name : String} (h : name ∈ (p.declared ns role overrides).map (·.1)) :
    Namespace.owns ns name = true := by
  simp only [declared, renamed, List.map_append, List.map_map, List.mem_append] at h
  rcases h with h | h
  · obtain ⟨entry, -, rfl⟩ := List.mem_map.mp h
    exact Namespace.owns_apply ns entry.1
  · split at h
    · rw [List.map_singleton, List.mem_singleton] at h
      exact h ▸ Namespace.owns_apply ns "count"
    · simp at h

theorem owns_passed {p : Plan} {ns : String} {role : Template} {name : String}
    (h : name ∈ (p.passed ns role).map (·.1)) : Namespace.owns ns name = true := by
  simp only [passed, List.map_map] at h
  obtain ⟨entry, -, rfl⟩ := List.mem_map.mp h
  exact Namespace.owns_apply ns entry.1

/-! ## Adding -/

theorem on_declare {p : Plan} {name : String} (ht : name ∉ p.template.parameters.names)
    (he : name ∉ p.environment.parameters.names) (parameter : Parameter) :
    (Change.declare name parameter).on p = (.ok (), p.withParameters [(name, parameter)]) := by
  let q : Plan :=
    { p with template := { p.template with
        parameters := p.template.parameters.extend [(name, parameter)] } }
  have hfirst : (Change.edit fun p => do
      return { p with template := ← p.template.addParameter name parameter }).on p =
        (.ok (), q) := by
    apply Change.on_edit_of_ok
    rw [Template.addParameter_of_not_mem ht]
    rfl
  rw [Change.declare, Change.on_bind_of_ok hfirst]
  apply Change.on_edit_of_ok
  rw [Environment.addParameter_of_not_mem (e := q.environment) he]
  rfl

private theorem apply_ne_of_not_mem {α : Type} {ns : String} {entry other : String × α}
    {rest : List (String × α)} (h : entry.1 ∉ rest.map (·.1)) (ho : other ∈ rest) :
    Namespace.apply ns other.1 ≠ Namespace.apply ns entry.1 :=
  fun hn => h (List.mem_map.mpr ⟨other, ho, Namespace.apply_inj.mp hn⟩)

theorem on_mergeParameters {p : Plan} {ns : String} (overrides : Table Value)
    {entries : List (String × Parameter)} (hd : (entries.map (·.1)).Nodup)
    (ht : ∀ entry ∈ entries, Namespace.apply ns entry.1 ∉ p.template.parameters.names)
    (he : ∀ entry ∈ entries, Namespace.apply ns entry.1 ∉ p.environment.parameters.names) :
    (entries.forM (Change.mergeParameter ns overrides)).on p =
      (.ok (), p.withParameters (renamed ns overrides entries)) := by
  induction entries generalizing p with
  | nil => simp [renamed]
  | cons entry rest ih =>
      obtain ⟨hnew, hd⟩ := List.nodup_cons.mp hd
      by_cases hc : overrides.contains entry.1 = true
      · have hfirst : (Change.mergeParameter ns overrides entry).on p = (.ok (), p) := by
          simp [Change.mergeParameter, hc]
        rw [Change.on_forM_cons_of_ok hfirst, ih hd
          (fun other ho => ht other (List.mem_cons_of_mem entry ho))
          (fun other ho => he other (List.mem_cons_of_mem entry ho))]
        simp [renamed, hc]
      · have hfirst : (Change.mergeParameter ns overrides entry).on p =
            (.ok (), p.withParameters [(Namespace.apply ns entry.1, entry.2)]) := by
          simpa [Change.mergeParameter, hc] using
            on_declare (ht entry List.mem_cons_self) (he entry List.mem_cons_self) entry.2
        rw [Change.on_forM_cons_of_ok hfirst, ih hd]
        · simp [withParameters_append, renamed, hc]
        · intro other ho
          simpa [withParameters] using
            ⟨ht other (List.mem_cons_of_mem entry ho), apply_ne_of_not_mem hnew ho⟩
        · intro other ho
          simpa [withParameters, firstValues] using
            ⟨he other (List.mem_cons_of_mem entry ho), apply_ne_of_not_mem hnew ho⟩

theorem on_mergeOutputs {p : Plan} {ns : String} (id : String) {entries : List (String × Output)}
    (hd : (entries.map (·.1)).Nodup)
    (ho : ∀ entry ∈ entries, Namespace.apply ns entry.1 ∉ p.template.outputs.names) :
    (entries.forM (Change.mergeOutput ns id)).on p =
      (.ok (), p.withOutputs (entries.map fun entry =>
        (Namespace.apply ns entry.1, passedOutput id entry.1 entry.2))) := by
  induction entries generalizing p with
  | nil => simp
  | cons entry rest ih =>
      obtain ⟨hnew, hd⟩ := List.nodup_cons.mp hd
      have hfirst : (Change.mergeOutput ns id entry).on p =
          (.ok (), p.withOutputs
            [(Namespace.apply ns entry.1, passedOutput id entry.1 entry.2)]) := by
        apply Change.on_edit_of_ok
        rw [Template.addOutput_of_not_mem (ho entry List.mem_cons_self)]
        rfl
      rw [Change.on_forM_cons_of_ok hfirst, ih hd]
      · simp [withOutputs_append]
      · intro other hmem
        simpa [withOutputs] using
          ⟨ho other (List.mem_cons_of_mem entry hmem), apply_ne_of_not_mem hnew hmem⟩

/-- The size of the group is none of the role's own parameters, unless that one is overridden. -/
private theorem countName_not_mem_renamed {p : Plan} (ns : String) {role : Template}
    {overrides : Table Value} (hs : p.scaling = true)
    (hclash : p.countClashes role overrides = false) :
    Namespace.countName ns ∉ (renamed ns overrides role.parameters.entries).map (·.1) := by
  intro hm
  rw [renamed, List.map_map] at hm
  obtain ⟨entry, he, hn⟩ := List.mem_map.mp hm
  obtain ⟨he, ho⟩ := List.mem_filter.mp he
  have hname : entry.1 = Resource.countName := Namespace.apply_inj.mp hn
  have hin : role.parameters.contains Resource.countName = true :=
    Table.contains_iff_mem_names.mpr (List.mem_map.mpr ⟨entry, he, hname⟩)
  rw [hname] at ho
  rw [countClashes, hs, hin, ho] at hclash
  exact absurd hclash (by decide)

private theorem on_mergeCount {p : Plan} {ns : String} {role : Template}
    {overrides : Table Value} (hfree : p.Free ns)
    (hclash : p.countClashes role overrides = false) :
    (Change.mergeCount p.scaling ns).on
        (p.withParameters (renamed ns overrides role.parameters.entries)) =
      (.ok (), p.withParameters (p.declared ns role overrides)) := by
  rw [Change.mergeCount]
  by_cases hs : p.scaling = true
  · have hcount := countName_not_mem_renamed ns hs hclash
    rw [if_pos hs, on_declare, withParameters_append, declared, if_pos hs]
    · rw [withParameters, Table.names_extend, List.mem_append, not_or]
      exact ⟨Free.apply_not_mem hfree.parameters "count", hcount⟩
    · rw [withParameters, Table.names_extend, List.mem_append, not_or, map_fst_firstValues]
      exact ⟨Free.apply_not_mem hfree.values "count", hcount⟩
  · rw [if_neg hs, declared, if_neg hs, List.append_nil]
    rfl

/-- Where the checks pass, all that follows them succeeds. -/
private theorem on_mergeParts {p : Plan} {ns : String} {role : Template} (hrole : role.Distinct)
    (filename : String) {overrides : Table Value} (hfree : p.Free ns)
    (hclash : p.countClashes role overrides = false) :
    (Change.mergeParts p ns role filename overrides).on p =
      (.ok (), p.withRole ns role filename overrides) := by
  let declared := p.withParameters (p.declared ns role overrides)
  let placed : Plan := { declared with template := { declared.template with
    resources := p.template.resources.extend [(p.roleId ns, p.roleEntry ns role overrides)] } }
  have hparameters := on_mergeParameters overrides hrole.parameters
    (fun entry _ => Free.apply_not_mem hfree.parameters entry.1)
    (fun entry _ => Free.apply_not_mem hfree.values entry.1)
  have hresource :
      (Change.mergeResource (p.roleId ns) (p.roleEntry ns role overrides)).on declared =
        (.ok (), placed) := by
    apply Change.on_edit_of_ok
    rw [Template.addResource_of_not_mem (t := declared.template) hfree.roleId]
    rfl
  have houtputs := on_mergeOutputs (p := placed) (p.roleId ns) hrole.outputs
    (fun entry _ => Free.apply_not_mem hfree.outputs entry.1)
  rw [Change.mergeParts, Change.on_bind_of_ok hparameters,
    Change.on_bind_of_ok (on_mergeCount hfree hclash), Change.on_bind_of_ok hresource,
    Change.on_bind_of_ok houtputs, Change.on_modify, Environment.register]
  simp only [withOutputs, placed, declared, withParameters]
  rw [Table.put_of_not_mem hfree.registry]
  rfl

/-- The outcome of adding a role: the two checks decide it, and where one fails nothing is done. -/
theorem on_mergeRole {role : Template} (hrole : role.Distinct) (p : Plan) (ns filename : String)
    (overrides : Table Value) :
    (Change.mergeRole ns role filename overrides).on p =
      if p.isFree ns = false then (.error (.duplicate .namespaceName ns), p)
      else if p.countClashes role overrides = true then
        (.error (.duplicate .parameter (Namespace.countName ns)), p)
      else (.ok (), p.withRole ns role filename overrides) := by
  rw [Change.mergeRole, Change.on_bind_of_ok (Change.on_get p)]
  cases hf : p.isFree ns with
  | false => rfl
  | true =>
      cases hc : p.countClashes role overrides with
      | false => exact on_mergeParts hrole filename (isFree_iff.mp hf) hc
      | true => rfl

/-! ## Removing -/

def isRoleId (ns id : String) : Bool := id == Namespace.resourceId ns || id == Namespace.groupId ns

theorem removeRole_eq (p : Plan) (ns : String) :
    p.removeRole ns =
      { p with
        template := { p.template with
          parameters := p.template.parameters.keep (!Namespace.owns ns ·)
          resources := p.template.resources.keep (!isRoleId ns ·)
          outputs := p.template.outputs.keep (!Namespace.owns ns ·) }
        environment := {
          parameters := p.environment.parameters.keep (!Namespace.owns ns ·)
          registry := p.environment.registry.keep (· != Namespace.aliasOf ns) } } := by
  have hids : (p.template.resources.keep (· != Namespace.resourceId ns)).keep
      (· != Namespace.groupId ns) = p.template.resources.keep (!isRoleId ns ·) := by
    rw [Table.keep_keep]
    congr 1
    funext id
    exact (Bool.not_or _ _).symm
  simp only [← hids, ← Table.split_snd]
  rfl

/-- Removing a namespace changes nothing exactly if nothing bears a name that belongs to it. -/
theorem removeRole_eq_self_iff {p : Plan} {ns : String} : p.removeRole ns = p ↔ p.Free ns := by
  obtain ⟨⟨version, description, parameters, groups, resources, outputs⟩, ⟨values, registry⟩,
    scaling⟩ := p
  rw [removeRole_eq]
  simp only [mk.injEq, Template.mk.injEq, Environment.mk.injEq, Table.keep_eq_self_iff,
    Bool.not_eq_true', bne_iff_ne, isRoleId, Bool.or_eq_false_iff, beq_eq_false_iff_ne, true_and,
    and_true]
  constructor
  · rintro ⟨⟨hp, hr, ho⟩, hv, hreg⟩
    exact ⟨fun hm => hreg _ hm rfl, fun hm => (hr _ hm).1 rfl, fun hm => (hr _ hm).2 rfl, hp, hv,
      ho⟩
  · rintro ⟨hreg, hr, hg, hp, hv, ho⟩
    exact ⟨⟨hp, fun id hm => ⟨fun he => hr (he ▸ hm), fun he => hg (he ▸ hm)⟩, ho⟩, hv,
      fun name hm he => hreg (he ▸ hm)⟩

theorem isRoleId_roleId (p : Plan) (ns : String) : isRoleId ns (p.roleId ns) = true := by
  unfold roleId
  split <;> simp [isRoleId]

theorem Free.isRoleId {p : Plan} {ns : String} (h : p.Free ns) :
    ∀ id ∈ p.template.resources.names, isRoleId ns id = false := by
  intro id hm
  rw [Plan.isRoleId, Bool.or_eq_false_iff, beq_eq_false_iff_ne, beq_eq_false_iff_ne]
  exact ⟨fun he => h.resource (he ▸ hm), fun he => h.group (he ▸ hm)⟩

/-- A filter takes away all of what was added, if none of it passes. -/
private theorem keep_extend_of_owned {α : Type} (owned : String → Bool) (t : Table α)
    (entries : List (String × α)) (he : ∀ name ∈ entries.map (·.1), owned name = true) :
    (t.extend entries).keep (!owned ·) = t.keep (!owned ·) := by
  have hnone : entries.filter (!owned ·.1) = [] := by
    refine List.filter_eq_nil_iff.mpr fun entry hm => ?_
    rw [he entry.1 (List.mem_map_of_mem hm)]
    decide
  rw [Table.keep_extend, hnone, Table.extend_nil]

/-- A filter takes away just what was added, if all else passes it. -/
private theorem keep_extend_of_fresh {α : Type} (owned : String → Bool) {t : Table α}
    (entries : List (String × α)) (ht : ∀ name ∈ t.names, owned name = false)
    (he : ∀ name ∈ entries.map (·.1), owned name = true) :
    (t.extend entries).keep (!owned ·) = t := by
  rw [keep_extend_of_owned owned t entries he]
  exact Table.keep_eq_self fun name hm => by rw [ht name hm]; rfl

/-- Removing a role that was just added gives the plan before it. -/
theorem removeRole_withRole {p : Plan} {ns : String} (h : p.Free ns) (role : Template)
    (filename : String) (overrides : Table Value) :
    (p.withRole ns role filename overrides).removeRole ns = p := by
  have hparameters := keep_extend_of_fresh (Namespace.owns ns) (p.declared ns role overrides)
    h.parameters fun name hm => owns_declared hm
  have hvalues := keep_extend_of_fresh (Namespace.owns ns)
    (firstValues (p.declared ns role overrides)) h.values
    fun name hm => owns_declared (map_fst_firstValues _ ▸ hm)
  have hresources := keep_extend_of_fresh (isRoleId ns)
    [(p.roleId ns, p.roleEntry ns role overrides)] h.isRoleId
    (by simpa using isRoleId_roleId p ns)
  have houtputs := keep_extend_of_fresh (Namespace.owns ns) (p.passed ns role) h.outputs
    fun name hm => owns_passed hm
  have hregistry := keep_extend_of_fresh (· == Namespace.aliasOf ns)
    [(Namespace.aliasOf ns, filename)] (t := p.environment.registry)
    (fun name hm => beq_eq_false_iff_ne.mpr fun he => h.registry (he ▸ hm)) (by simp)
  rw [removeRole_eq]
  simp only [withRole, hparameters, hvalues, hresources, houtputs]
  rw [show (p.environment.registry.extend [(Namespace.aliasOf ns, filename)]).keep
    (· != Namespace.aliasOf ns) = p.environment.registry from hregistry]

/-! ## All or nothing -/

theorem countClashes_iff {p : Plan} {role : Template} {overrides : Table Value} :
    p.countClashes role overrides = true ↔
      p.scaling = true ∧ Resource.countName ∈ role.parameters.names ∧
        Resource.countName ∉ overrides.names := by
  rw [countClashes, Bool.and_eq_true, Bool.and_eq_true, Bool.not_eq_true',
    Table.contains_iff_mem_names, Table.contains_eq_false_iff]

/-- Adding a role fails exactly if removing its namespace would change the plan, or if the role
declares a count of its own that is not overridden while roles are wrapped in groups. A failure
leaves the plan as it was; otherwise none of the single additions fails. -/
theorem mergeRole_all_or_nothing {role : Template} (hrole : role.Distinct) (p : Plan)
    (ns filename : String) (overrides : Table Value) :
    let outcome := (Change.mergeRole ns role filename overrides).on p
    let clash := p.scaling = true ∧ Resource.countName ∈ role.parameters.names ∧
      Resource.countName ∉ overrides.names
    ((∃ e, outcome.1 = .error e) ↔ p.removeRole ns ≠ p ∨ clash) ∧
    (p.removeRole ns ≠ p → outcome.1 = .error (.duplicate .namespaceName ns)) ∧
    (p.removeRole ns = p → clash →
      outcome.1 = .error (.duplicate .parameter (Namespace.countName ns))) ∧
    (∀ e, outcome.1 = .error e → outcome.2 = p) ∧
    (p.removeRole ns = p → ¬ clash →
      outcome = (.ok (), p.withRole ns role filename overrides)) := by
  intro outcome clash
  have hout : outcome = _ := on_mergeRole hrole p ns filename overrides
  have hfree : p.isFree ns = true ↔ p.removeRole ns = p :=
    isFree_iff.trans removeRole_eq_self_iff.symm
  have hclash : p.countClashes role overrides = true ↔ clash := countClashes_iff
  cases hf : p.isFree ns with
  | false =>
      have hne : p.removeRole ns ≠ p := fun he => by simp [hfree.mpr he] at hf
      simp only [hf, if_true] at hout
      simp [hout, hne]
  | true =>
      have heq : p.removeRole ns = p := hfree.mp hf
      cases hc : p.countClashes role overrides with
      | false =>
          have hno : ¬ clash := fun h => by simp [hclash.mpr h] at hc
          simp only [hf, hc, Bool.true_eq_false, Bool.false_eq_true, if_false] at hout
          simp [hout, heq, hno]
      | true =>
          have hyes : clash := hclash.mp hc
          simp only [hf, hc, Bool.true_eq_false, if_false, if_true] at hout
          simp [hout, heq, hyes]

/-- A role with a parameter that is named like the size of a group. -/
def countingRole : Template :=
  { parameters := ⟨[("image", { type := "string" }), ("count", { type := "number" })]⟩ }

theorem mergeRole_countingRole :
    countingRole.Distinct ∧
      (Change.mergeRole "compute-1" countingRole "compute.yaml" .empty).on {} =
        (.error (.duplicate .parameter "compute-1::count"), {}) := by
  have hrole : countingRole.Distinct := ⟨by decide, by decide, by decide⟩
  obtain ⟨-, -, hclash, hleft, -⟩ :=
    mergeRole_all_or_nothing hrole {} "compute-1" "compute.yaml" .empty
  have herror := hclash rfl ⟨rfl, by decide, by decide⟩
  exact ⟨hrole, Prod.ext herror (hleft _ herror)⟩

/-! ## Taking back an addition -/

section Removed

variable {p q : Plan} {ns : String}

/-- A removal does not see whether the namespace owns one more parameter. -/
private theorem removed_declare {name : String} (h : Namespace.owns ns name = true)
    (parameter : Parameter) :
    Change.Keeps (fun q => q.removeRole ns = p.removeRole ns) (Change.declare name parameter) := by
  refine (Change.keeps_editTemplate (f := (·.addParameter name parameter))
    fun q t hq ht => ?_).bind fun _ => Change.keeps_edit fun q r hq hr => ?_
  · obtain ⟨-, rfl⟩ := Template.eq_of_addParameter ht
    refine Eq.trans ?_ hq
    rw [removeRole_eq, removeRole_eq]
    simp only [keep_extend_of_owned (Namespace.owns ns) q.template.parameters [(name, parameter)]
      (by simpa using h)]
  · obtain ⟨e, he, hr⟩ := Proofs.bind_eq_ok hr
    obtain ⟨-, rfl⟩ := Environment.eq_of_addParameter he
    cases hr
    refine Eq.trans ?_ hq
    rw [removeRole_eq, removeRole_eq]
    simp only [keep_extend_of_owned (Namespace.owns ns) q.environment.parameters
      [(name, parameter.initialValue)] (by simpa using h)]

/-- A removal takes away whatever the addition of a role has brought, even of one that failed on
its way. -/
theorem removeRole_mergeRole (p : Plan) (ns : String) (role : Template) (filename : String)
    (overrides : Table Value) :
    ((Change.mergeRole ns role filename overrides).on p).2.removeRole ns = p.removeRole ns := by
  refine Change.keeps_mergeRole (P := fun q => q.removeRole ns = p.removeRole ns)
    (fun entry _ => removed_declare (Namespace.owns_apply ns entry.1) entry.2)
    (removed_declare (Namespace.owns_apply ns _) _) (fun before => ?_) (fun before entry _ => ?_)
    (fun q hq => ?_) p rfl
  · refine Change.keeps_editTemplate
      (f := (·.addResource (before.roleId ns) (before.roleEntry ns role overrides)))
      fun q t hq ht => ?_
    obtain ⟨-, rfl⟩ := Template.eq_of_addResource ht
    refine Eq.trans ?_ hq
    rw [removeRole_eq, removeRole_eq]
    simp only [keep_extend_of_owned (isRoleId ns) q.template.resources
      [(before.roleId ns, before.roleEntry ns role overrides)]
      (by simpa using isRoleId_roleId before ns)]
  · refine Change.keeps_editTemplate
      (f := (·.addOutput (Namespace.apply ns entry.1)
        (passedOutput (before.roleId ns) entry.1 entry.2))) fun q t hq ht => ?_
    obtain ⟨-, rfl⟩ := Template.eq_of_addOutput ht
    refine Eq.trans ?_ hq
    rw [removeRole_eq, removeRole_eq]
    simp only [keep_extend_of_owned (Namespace.owns ns) q.template.outputs
      [(Namespace.apply ns entry.1, passedOutput (before.roleId ns) entry.1 entry.2)]
      (by simpa using Namespace.owns_apply ns entry.1)]
  · refine Eq.trans ?_ hq
    rw [removeRole_eq, removeRole_eq]
    have hput : (q.environment.registry.put (Namespace.aliasOf ns) filename).keep
        (· != Namespace.aliasOf ns) = q.environment.registry.keep (· != Namespace.aliasOf ns) := by
      refine Table.keep_put_of_neg ?_ _ _
      exact bne_self_eq_false _
    simp only [Environment.register, hput]

theorem free_of_mergeRole {role : Template} {filename : String} {overrides : Table Value}
    (h : (Change.mergeRole ns role filename overrides).on p = (.ok (), q)) : p.Free ns := by
  rw [Change.mergeRole, Change.on_bind_of_ok (Change.on_get p)] at h
  rw [← isFree_iff]
  cases hf : p.isFree ns with
  | true => rfl
  | false =>
      simp only [hf, Bool.not_false, if_true, Change.on_throw] at h
      cases h

/-- A role that was added is taken back by removing its namespace, whatever the scaling is by then,
and removing the namespace once more changes nothing. -/
theorem removeRole_of_addRole {role : Template} {filename : String} {overrides : Table Value}
    (h : p.addRole ns role filename overrides = .ok q) (scaling : Bool) :
    let left := (q.withScaling scaling).removeRole ns
    left.template = p.template ∧ left.environment = p.environment ∧ left.removeRole ns = left := by
  have hremoved := removeRole_mergeRole p ns role filename overrides
  rw [addRole] at h
  split at h
  · next r hon =>
      cases h
      have hfree := free_of_mergeRole hon
      rw [hon, removeRole_eq_self_iff.mpr hfree] at hremoved
      -- The removal does not look at the scaling, so that it can be set after it.
      have hleft : (q.withScaling scaling).removeRole ns = p.withScaling scaling :=
        congrArg (withScaling · scaling) hremoved
      have hagain : (p.withScaling scaling).removeRole ns = p.withScaling scaling :=
        congrArg (withScaling · scaling) (removeRole_eq_self_iff.mpr hfree)
      rw [hleft]
      exact ⟨rfl, rfl, hagain⟩
  · cases h

end Removed

/-- A plan with names that come close to a namespace and do not belong to it. -/
def crowdedPlan : Plan where
  template := {
    parameters := ⟨[("a::b", { type := "string" }), ("::image", { type := "string" })]⟩
    resources := ⟨[("a::b-resources", { type := "T" }), ("a-servers", { type := "T" })]⟩
    outputs := ⟨[("a::b:", { value := .null })]⟩ }
  environment := {
    parameters := ⟨[("::image", .string "x"), ("a::b:ip", .null)]⟩
    registry := ⟨[("Tuskar::a", "a.yaml"), ("Tuskar::a::b::", "b.yaml")]⟩ }

theorem removeRole_of_addRole_crowdedPlan :
    let q := crowdedPlan.withRole "a::b" countingRole "r.yaml" ⟨[("count", .int 2)]⟩
    crowdedPlan.addRole "a::b" countingRole "r.yaml" ⟨[("count", .int 2)]⟩ = .ok q ∧
      q.template.parameters.names = ["a::b", "::image", "a::b::image", "a::b::count"] ∧
      let left := (q.withScaling false).removeRole "a::b"
      left.template = crowdedPlan.template ∧ left.environment = crowdedPlan.environment ∧
        left.removeRole "a::b" = left := by
  have hadd : crowdedPlan.addRole "a::b" countingRole "r.yaml" ⟨[("count", .int 2)]⟩ =
      .ok (crowdedPlan.withRole "a::b" countingRole "r.yaml" ⟨[("count", .int 2)]⟩) := rfl
  exact ⟨hadd, rfl, removeRole_of_addRole hadd false⟩

end RolePlan.Plan
