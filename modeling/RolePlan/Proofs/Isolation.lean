import RolePlan.Proofs.Checked

/-!
# Roles that do not get in each other's way

A name belongs to one role of a checked description at most, and no id or alias of one role is that
of another. Where the namespace of a role begins with that of another one, what follows it is no
delimiter.
-/

namespace RolePlan

/-- Nothing that is named for the first namespace can be taken for a part of the second. -/
structure Namespace.Isolated (a b : String) : Prop where
  ne : a ≠ b
  unshared : ∀ name, ¬ (owns a name = true ∧ owns b name = true)
  inside : ∀ name, owns b (apply a name) = false
  resourceIds : resourceId a ≠ resourceId b
  groupIds : groupId a ≠ groupId b
  kinds : ∀ other, resourceId a ≠ groupId other
  aliases : aliasOf a ≠ aliasOf b

/-- Different namespaces are isolated if none of them holds the delimiter or ends in half of one. -/
theorem Namespace.Simple.isolated {a b : String} (ha : Simple a) (hb : Simple b) (hne : a ≠ b) :
    Isolated a b where
  ne := hne
  unshared := fun _ h => hne (ha.eq_of_owns hb h.1 h.2)
  inside := fun name => ha.owns_eq_false hb hne (owns_apply a name)
  resourceIds := fun h => hne (resourceId_inj.mp h)
  groupIds := fun h => hne (groupId_inj.mp h)
  kinds := resourceId_ne_groupId a
  aliases := fun h => hne (aliasOf_inj.mp h)

namespace Description

/-- Any two roles of a description that passes the check are isolated from each other. -/
theorem roles_isolated {d : Description} (h : d.check = .ok ()) {i j : Nat}
    (hi : i < d.roles.length) (hj : j < d.roles.length) (hij : i ≠ j) :
    Namespace.Isolated d.roles[i].ns d.roles[j].ns := by
  obtain ⟨hsimple, hnodup⟩ := spec_of_check h
  have hdiffer := List.pairwise_iff_getElem.mp (List.pairwise_map.mp hnodup)
  have hne : d.roles[i].ns ≠ d.roles[j].ns := by
    rcases Nat.lt_or_gt_of_ne hij with hlt | hlt
    · exact hdiffer i j hi hj hlt
    · exact (hdiffer j i hj hi hlt).symm
  exact (hsimple _ (List.getElem_mem hi)).isolated (hsimple _ (List.getElem_mem hj)) hne

/-- Roles with namespaces that begin with one another, one of them named with a colon. -/
def crowdedDescription : Description where
  name := "crowded"
  roles := [{ name := "a", version := 1, template := "a.yaml" },
    { name := "a", version := 10, template := "a.yaml" },
    { name := "a:", version := 1, template := "a.yaml" },
    { name := "a-1", version := 1, template := "a.yaml" }]
  output := { path := "out" }

theorem roles_isolated_crowdedDescription :
    crowdedDescription.check = .ok () ∧ Namespace.Isolated "a-1" "a-10" ∧
      Namespace.Isolated "a-1-1" "a-1" ∧ Namespace.Isolated "a:-1" "a-1" := by
  have hcheck : crowdedDescription.check = .ok () := rfl
  have hns : crowdedDescription.roles.map (·.ns) = ["a-1", "a-10", "a:-1", "a-1-1"] := by
    decide +kernel
  simp only [crowdedDescription, List.map_cons, List.map_nil, List.cons.injEq, and_true] at hns
  obtain ⟨h0, h1, h2, h3⟩ := hns
  rw [← h0, ← h1, ← h2, ← h3]
  exact ⟨hcheck, roles_isolated hcheck (by decide) (by decide) (by decide : 0 ≠ 1),
    roles_isolated hcheck (by decide) (by decide) (by decide : 3 ≠ 0),
    roles_isolated hcheck (by decide) (by decide) (by decide : 2 ≠ 0)⟩

end Description

end RolePlan
