import RolePlan.Proofs.Run

/-!
# Removal among other edits

What an edit does to a plan, in closed form. Removing a namespace absorbs the edits that concern
it and commutes with all others, so that it can be moved to the front of a run: none of the others
succeeds or fails any differently without the namespace.
-/

namespace RolePlan.Plan

def withValue (p : Plan) (name : String) (value : Value) : Plan :=
  { p with environment := { p.environment with
    parameters := p.environment.parameters.put name value } }

namespace Edit

/-- The namespaces of the edit are simple, and no table of a role gives a name twice. -/
def Proper : Edit → Prop
  | addRole ns role _ _ => Namespace.Simple ns ∧ role.Distinct
  | removeRole ns => Namespace.Simple ns
  | setValue .. => True
  | withScaling _ => True

/-- The edit adds or removes the namespace, or sets one of its values. -/
def concerns (ns : String) : Edit → Bool
  | addRole other _ _ _ => other == ns
  | removeRole other => other == ns
  | setValue name _ => Namespace.owns ns name
  | withScaling _ => false

/-! ## The outcome of an edit -/

section Outcome

variable {p : Plan} {ns : String} {role : Template} {name : String}

theorem addRole_on (hrole : role.Distinct) (p : Plan) (ns filename : String)
    (overrides : Table Value) :
    (addRole ns role filename overrides).run p =
        (if p.isFree ns && !p.countClashes role overrides then
          p.withRole ns role filename overrides else p) ∧
      (addRole ns role filename overrides).succeeds p =
        (p.isFree ns && !p.countClashes role overrides) := by
  rw [run, succeeds, change, on_mergeRole hrole]
  cases p.isFree ns with
  | false => exact ⟨rfl, rfl⟩
  | true =>
      cases p.countClashes role overrides with
      | false => exact ⟨rfl, rfl⟩
      | true => exact ⟨rfl, rfl⟩

theorem setValue_on (p : Plan) (name : String) (value : Value) :
    (setValue name value).run p =
        (if p.environment.parameters.contains name then p.withValue name value else p) ∧
      (setValue name value).succeeds p = p.environment.parameters.contains name := by
  rw [run, succeeds, change]
  by_cases h : p.environment.parameters.contains name = true
  · have hok : Plan.setValue p name value = .ok (p.withValue name value) := by
      rw [Plan.setValue, Environment.setParameter, if_pos h]
      rfl
    rw [Change.on_edit_of_ok hok, if_pos h, h]
    exact ⟨rfl, rfl⟩
  · have herror : Plan.setValue p name value =
        .error (.notFound .environmentParameter name) := by
      rw [Plan.setValue, Environment.setParameter, if_neg h]
      rfl
    rw [Change.on_edit_of_error herror, if_neg h, Bool.eq_false_iff.mpr h]
    exact ⟨rfl, rfl⟩

/-- An edit that fails leaves the plan as it was. -/
theorem run_of_fails {e : Edit} (he : e.Proper) {p : Plan} (h : e.succeeds p = false) :
    e.run p = p := by
  cases e with
  | addRole ns role filename overrides =>
      obtain ⟨hrun, hsucc⟩ := addRole_on he.2 p ns filename overrides
      rw [hrun, ← hsucc, h]
      rfl
  | removeRole ns => cases h
  | withScaling scaling => cases h
  | setValue name value =>
      obtain ⟨hrun, hsucc⟩ := setValue_on p name value
      rw [hrun, ← hsucc, h]
      rfl

theorem free_of_addRole_succeeds (hrole : role.Distinct) {filename : String}
    {overrides : Table Value} (h : (addRole ns role filename overrides).succeeds p = true) :
    p.Free ns ∧ (addRole ns role filename overrides).run p =
      p.withRole ns role filename overrides := by
  obtain ⟨hrun, hsucc⟩ := addRole_on hrole p ns filename overrides
  rw [hsucc] at h
  rw [hrun, if_pos h]
  exact ⟨isFree_iff.mp (Bool.and_eq_true_iff.mp h).1, rfl⟩

end Outcome

end Edit

/-! ## Removing twice -/

theorem removeRole_comm (p : Plan) (a b : String) :
    (p.removeRole a).removeRole b = (p.removeRole b).removeRole a := by
  simp only [removeRole_eq]
  rw [Table.keep_comm _ _ p.template.parameters, Table.keep_comm _ _ p.template.resources,
    Table.keep_comm _ _ p.template.outputs, Table.keep_comm _ _ p.environment.parameters,
    Table.keep_comm _ _ p.environment.registry]

theorem removeRole_removeRole (p : Plan) (ns : String) :
    (p.removeRole ns).removeRole ns = p.removeRole ns := by
  simp only [removeRole_eq, Table.keep_keep, Bool.and_self]

/-! ## Removing one namespace and adding another -/

section Apart

variable {a b : String}

theorem isRoleId_roleId_of_ne (p : Plan) (h : a ≠ b) : isRoleId a (p.roleId b) = false := by
  rw [isRoleId, Bool.or_eq_false_iff, beq_eq_false_iff_ne, beq_eq_false_iff_ne, roleId]
  split
  · exact ⟨fun he => Namespace.resourceId_ne_groupId a b he.symm,
      fun he => h (Namespace.groupId_inj.mp he.symm)⟩
  · exact ⟨fun he => h (Namespace.resourceId_inj.mp he.symm),
      Namespace.resourceId_ne_groupId b a⟩

/-- A filter lets pass all that was added, if none of it is filtered out. -/
private theorem keep_extend_of_apart {α : Type} (owned : String → Bool) (t : Table α)
    (entries : List (String × α)) (he : ∀ name ∈ entries.map (·.1), owned name = false) :
    (t.extend entries).keep (!owned ·) = (t.keep (!owned ·)).extend entries := by
  rw [Table.keep_extend]
  congr 1
  refine List.filter_eq_self.mpr fun entry hm => ?_
  rw [he entry.1 (List.mem_map_of_mem hm)]
  rfl

theorem removeRole_withRole_of_ne (ha : Namespace.Simple a) (hb : Namespace.Simple b) (h : a ≠ b)
    (p : Plan) (role : Template) (filename : String) (overrides : Table Value) :
    (p.withRole b role filename overrides).removeRole a =
      (p.removeRole a).withRole b role filename overrides := by
  have hapart : ∀ name, Namespace.owns b name = true → Namespace.owns a name = false :=
    fun name hn => hb.owns_eq_false ha h.symm hn
  have hparameters := keep_extend_of_apart (Namespace.owns a) p.template.parameters
    (p.declared b role overrides) fun name hm => hapart name (owns_declared hm)
  have hvalues := keep_extend_of_apart (Namespace.owns a) p.environment.parameters
    (firstValues (p.declared b role overrides))
    fun name hm => hapart name (owns_declared (map_fst_firstValues _ ▸ hm))
  have hresources := keep_extend_of_apart (isRoleId a) p.template.resources
    [(p.roleId b, p.roleEntry b role overrides)]
    (by simpa using isRoleId_roleId_of_ne p h)
  have houtputs := keep_extend_of_apart (Namespace.owns a) p.template.outputs
    (p.passed b role) fun name hm => hapart name (owns_passed hm)
  have hregistry := keep_extend_of_apart (· == Namespace.aliasOf a) p.environment.registry
    [(Namespace.aliasOf b, filename)]
    (by simpa using fun he => h (Namespace.aliasOf_inj.mp he).symm)
  rw [removeRole_eq, removeRole_eq]
  simp only [withRole, hparameters, hvalues, hresources, houtputs]
  rw [show (p.environment.registry.extend [(Namespace.aliasOf b, filename)]).keep
    (· != Namespace.aliasOf a) =
      (p.environment.registry.keep (· != Namespace.aliasOf a)).extend
        [(Namespace.aliasOf b, filename)] from hregistry]
  rfl

private theorem forall_keep_iff {names : List String} {owned other : String → Bool}
    (h : ∀ name, other name = true → owned name = false) :
    (∀ name ∈ names.filter (!owned ·), other name = false) ↔
      ∀ name ∈ names, other name = false := by
  refine ⟨fun hall name hm => ?_, fun hall name hm => hall name (List.mem_filter.mp hm).1⟩
  cases ho : other name with
  | false => rfl
  | true =>
      have := hall name (List.mem_filter.mpr ⟨hm, by rw [h name ho]; rfl⟩)
      rwa [ho] at this

/-- Whether a namespace is free does not depend on another one's being there. -/
theorem free_removeRole_iff (ha : Namespace.Simple a) (hb : Namespace.Simple b) (h : a ≠ b)
    (p : Plan) : (p.removeRole a).Free b ↔ p.Free b := by
  have hapart : ∀ name, Namespace.owns b name = true → Namespace.owns a name = false :=
    fun name hn => hb.owns_eq_false ha h.symm hn
  have hresource : isRoleId a (Namespace.resourceId b) = false :=
    isRoleId_roleId_of_ne { scaling := false } h
  have hgroup : isRoleId a (Namespace.groupId b) = false := isRoleId_roleId_of_ne {} h
  have halias : Namespace.aliasOf b ≠ Namespace.aliasOf a :=
    fun he => h (Namespace.aliasOf_inj.mp he).symm
  rw [removeRole_eq]
  constructor
  · rintro ⟨hr, hs, hg, hp, hv, ho⟩
    simp only [Table.names_keep, forall_keep_iff hapart] at hp hv ho
    simp only [Table.names_keep, List.mem_filter, hresource, hgroup, bne_iff_ne.mpr halias,
      Bool.not_false, and_true] at hr hs hg
    exact ⟨hr, hs, hg, hp, hv, ho⟩
  · rintro ⟨hr, hs, hg, hp, hv, ho⟩
    constructor <;> simp only [Table.names_keep, forall_keep_iff hapart]
    · exact fun hm => hr (List.mem_filter.mp hm).1
    · exact fun hm => hs (List.mem_filter.mp hm).1
    · exact fun hm => hg (List.mem_filter.mp hm).1
    · exact hp
    · exact hv
    · exact ho

theorem isFree_removeRole (ha : Namespace.Simple a) (hb : Namespace.Simple b) (h : a ≠ b)
    (p : Plan) : (p.removeRole a).isFree b = p.isFree b := by
  rw [Bool.eq_iff_iff, isFree_iff, isFree_iff, free_removeRole_iff ha hb h]

end Apart

/-! ## Removing a namespace and setting a value -/

theorem removeRole_withValue_of_owns {ns name : String} (h : Namespace.owns ns name = true)
    (p : Plan) (value : Value) : (p.withValue name value).removeRole ns = p.removeRole ns := by
  rw [removeRole_eq, removeRole_eq]
  simp only [withValue]
  rw [Table.keep_put_of_neg (by rw [h]; rfl)]

theorem removeRole_withValue_of_not_owns {ns name : String} (h : Namespace.owns ns name = false)
    (p : Plan) (value : Value) :
    (p.withValue name value).removeRole ns = (p.removeRole ns).withValue name value := by
  rw [removeRole_eq, removeRole_eq]
  simp only [withValue]
  rw [Table.keep_put_of_pos (by rw [h]; rfl)]

theorem contains_removeRole_of_not_owns {ns name : String} (h : Namespace.owns ns name = false)
    (p : Plan) : (p.removeRole ns).environment.parameters.contains name =
      p.environment.parameters.contains name := by
  rw [Bool.eq_iff_iff, Table.contains_iff_mem_names, Table.contains_iff_mem_names, removeRole_eq,
    Table.names_keep, List.mem_filter, h]
  exact and_iff_left rfl

/-! ## Moving a removal to the front -/

theorem removeRole_run {ns : String} (hns : Namespace.Simple ns) {e : Edit} (he : e.Proper)
    (p : Plan) :
    (e.run p).removeRole ns =
      if e.concerns ns then p.removeRole ns else e.run (p.removeRole ns) := by
  cases e with
  | withScaling scaling => rfl
  | removeRole other =>
      by_cases hn : other = ns
      · subst hn
        rw [Edit.concerns, beq_self_eq_true, if_pos rfl]
        exact removeRole_removeRole p other
      · rw [Edit.concerns, beq_eq_false_iff_ne.mpr hn, if_neg Bool.false_ne_true]
        exact removeRole_comm p other ns
  | setValue name value =>
      obtain ⟨hrun, -⟩ := Edit.setValue_on p name value
      obtain ⟨hafter, -⟩ := Edit.setValue_on (p.removeRole ns) name value
      rw [hrun, hafter, Edit.concerns]
      cases hn : Namespace.owns ns name with
      | true =>
          simp only [if_true]
          split
          · exact removeRole_withValue_of_owns hn p value
          · rfl
      | false =>
          rw [contains_removeRole_of_not_owns hn, if_neg Bool.false_ne_true]
          split
          · exact removeRole_withValue_of_not_owns hn p value
          · rfl
  | addRole other role filename overrides =>
      obtain ⟨hrun, -⟩ := Edit.addRole_on he.2 p other filename overrides
      by_cases hn : other = ns
      · subst hn
        rw [hrun, Edit.concerns, beq_self_eq_true, if_pos rfl]
        split
        · next h =>
            have hfree := isFree_iff.mp (Bool.and_eq_true_iff.mp h).1
            rw [removeRole_withRole hfree, removeRole_eq_self_iff.mpr hfree]
        · rfl
      · have hne : ns ≠ other := fun h => hn h.symm
        obtain ⟨hafter, -⟩ := Edit.addRole_on he.2 (p.removeRole ns) other filename overrides
        have hfree := isFree_removeRole hns he.1 hne p
        have hclash : (p.removeRole ns).countClashes role overrides =
            p.countClashes role overrides := rfl
        rw [hrun, hafter, hfree, hclash, Edit.concerns, beq_eq_false_iff_ne.mpr hn,
          if_neg Bool.false_ne_true]
        split
        · exact removeRole_withRole_of_ne hns he.1 hne p role filename overrides
        · rfl

/-- An edit that does not concern a namespace succeeds or fails whether or not the namespace is
there. -/
theorem Edit.succeeds_removeRole {ns : String} (hns : Namespace.Simple ns) {e : Edit}
    (he : e.Proper) (hc : e.concerns ns = false) (p : Plan) :
    e.succeeds (p.removeRole ns) = e.succeeds p := by
  cases e with
  | withScaling scaling => rfl
  | removeRole other => rfl
  | setValue name value =>
      rw [(setValue_on _ name value).2, (setValue_on p name value).2]
      exact contains_removeRole_of_not_owns hc p
  | addRole other role filename overrides =>
      have hne : ns ≠ other := fun h => beq_eq_false_iff_ne.mp hc h.symm
      have hclash : (p.removeRole ns).countClashes role overrides =
          p.countClashes role overrides := rfl
      rw [(addRole_on he.2 _ other filename overrides).2,
        (addRole_on he.2 p other filename overrides).2, isFree_removeRole hns he.1 hne, hclash]

/-- Removing a namespace at the end of a run comes to leaving out what concerns it. -/
theorem removeRole_runEdits {ns : String} (hns : Namespace.Simple ns) {es : List Edit}
    (hes : ∀ e ∈ es, e.Proper) (p : Plan) :
    (runEdits es p).removeRole ns =
      runEdits (es.filter (!·.concerns ns)) (p.removeRole ns) := by
  induction es generalizing p with
  | nil => rfl
  | cons e rest ih =>
      have hrest := ih fun other ho => hes other (List.mem_cons_of_mem e ho)
      rw [runEdits_cons, hrest, removeRole_run hns (hes e List.mem_cons_self)]
      cases hc : e.concerns ns with
      | true => simp [hc]
      | false => simp [hc]

end RolePlan.Plan
