import RolePlan.Proofs.Edit

/-!
# Removing namespaces

Removing a namespace takes its names out of a plan one after another, and comes to filtering the
tables of the plan: what is left keeps its contents and its order. So it makes no difference in
which order namespaces are removed, even where the names of one are also names of another, and none
if one is removed again.
-/

namespace RolePlan

/-- The names of a namespace are those that begin with it and the delimiter. -/
theorem Namespace.owns_iff_exists {ns name : String} :
    owns ns name = true ↔ ∃ rest, name = ns ++ "::" ++ rest := by
  rw [owns_eq_true_iff]
  constructor
  · rintro ⟨rest, hrest⟩
    refine ⟨String.ofList rest, String.toList_injective ?_⟩
    simp only [String.toList_append, String.toList_ofList, ← hrest]
    rfl
  · rintro ⟨rest, rfl⟩
    exact owns_eq_true_iff.mp (owns_apply ns rest)

namespace Plan

/-- Removing a namespace filters the tables of a plan by what the namespace owns and leaves all else
as it is. Removals can be made in any order, and again. -/
theorem removeRole_filters (p : Plan) (ns : String) :
    let q := p.removeRole ns
    (∀ name, Namespace.owns ns name = true ↔ ∃ rest, name = ns ++ "::" ++ rest) ∧
      q.template.parameters.entries =
        p.template.parameters.entries.filter (fun entry => !Namespace.owns ns entry.1) ∧
      q.template.outputs.entries =
        p.template.outputs.entries.filter (fun entry => !Namespace.owns ns entry.1) ∧
      q.environment.parameters.entries =
        p.environment.parameters.entries.filter (fun entry => !Namespace.owns ns entry.1) ∧
      q.template.resources.entries = p.template.resources.entries.filter (fun entry =>
        entry.1 ≠ ns ++ "-resource" ∧ entry.1 ≠ ns ++ "-servers") ∧
      q.environment.registry.entries =
        p.environment.registry.entries.filter (fun entry => entry.1 ≠ "Tuskar::" ++ ns) ∧
      (q.template.version = p.template.version ∧
        q.template.description = p.template.description ∧
        q.template.groups = p.template.groups ∧ q.scaling = p.scaling) ∧
      (∀ other, q.removeRole other = (p.removeRole other).removeRole ns) ∧
      q.removeRole ns = q := by
  intro q
  have hq : q = p.removeRole ns := rfl
  refine ⟨fun name => Namespace.owns_iff_exists, ?_, ?_, ?_, ?_, ?_, ⟨rfl, rfl, rfl, rfl⟩,
    removeRole_comm p ns, removeRole_removeRole p ns⟩
  · rw [hq, removeRole_eq]
    rfl
  · rw [hq, removeRole_eq]
    rfl
  · rw [hq, removeRole_eq]
    rfl
  · rw [hq, removeRole_eq]
    refine List.filter_congr fun entry _ => ?_
    rw [Bool.eq_iff_iff]
    simp [isRoleId, Namespace.resourceId, Namespace.groupId]
  · rw [hq, removeRole_eq]
    refine List.filter_congr fun entry _ => ?_
    rw [Bool.eq_iff_iff]
    simp [Namespace.aliasOf, Namespace.aliasMark]

end Plan

end RolePlan
