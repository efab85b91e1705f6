import RolePlan.Description.Check
import RolePlan.Proofs.Except
import RolePlan.Proofs.Namespace

/-!
# Descriptions that pass the check

The roles of a description that passes the check have namespaces that are simple and all different.
-/

namespace RolePlan.Description

theorem colon_not_mem_digits (n : Nat) : ':' ∉ (toString n).toList := by
  intro h
  rw [Nat.toString_eq_repr, Nat.repr_eq_ofList_toDigits, String.toList_ofList] at h
  exact absurd (Nat.isDigit_of_mem_toDigits (by decide) (by decide) h) (by decide)

/-- A dash and digits end the namespace of a role, so that only the role's name could hold a
delimiter. -/
theorem Role.simple_of_check {r : Role} (h : r.check = .ok ()) : Namespace.Simple r.ns := by
  obtain ⟨_, hname, -⟩ := Proofs.bind_eq_ok h
  obtain ⟨_, -, hname⟩ := Proofs.bind_eq_ok hname
  have hafter : Namespace.afterDelimiter? r.name.toList = none := by
    cases ha : Namespace.afterDelimiter? r.name.toList with
    | none => rfl
    | some rest =>
        rw [ha] at hname
        cases hname
  have htail : ':' ∉ "-".toList ++ (toString r.version).toList := by
    rw [List.mem_append, not_or]
    exact ⟨by decide, colon_not_mem_digits r.version⟩
  have hns : r.ns.toList = r.name.toList ++ ("-".toList ++ (toString r.version).toList) := by
    rw [Role.ns, String.toList_append, String.toList_append, List.append_assoc]
  rw [Namespace.Simple, hns]
  refine ⟨Namespace.not_infix_append (Namespace.not_infix_of_afterDelimiter? hafter) htail, ?_⟩
  have hsome : ("-".toList ++ (toString r.version).toList).getLast?.isSome = true := by simp
  obtain ⟨c, hc⟩ := Option.isSome_iff_exists.mp hsome
  rw [List.getLast?_append, hc, Option.some_or]
  intro hcolon
  rw [Option.some.inj hcolon] at hc
  exact htail (List.mem_of_getLast? hc)

theorem spec_of_checkRoles {taken : List String} {roles : List Role}
    (h : checkRoles taken roles = .ok ()) :
    (∀ r ∈ roles, Namespace.Simple r.ns ∧ r.ns ∉ taken) ∧ (roles.map (·.ns)).Nodup := by
  induction roles generalizing taken with
  | nil => simp
  | cons r rest ih =>
      obtain ⟨_, hr, h⟩ := Proofs.bind_eq_ok h
      dsimp only at h
      split at h
      · cases h
      · next hnew =>
          rw [List.contains_iff_mem] at hnew
          obtain ⟨hrest, hnodup⟩ := ih h
          rw [List.forall_mem_cons, List.map_cons, List.nodup_cons]
          refine ⟨⟨⟨Role.simple_of_check hr, hnew⟩, fun other ho => ?_⟩, ?_, hnodup⟩
          · exact ⟨(hrest other ho).1, fun hm => (hrest other ho).2 (List.mem_cons_of_mem _ hm)⟩
          · intro hm
            obtain ⟨other, ho, hsame⟩ := List.mem_map.mp hm
            exact (hrest other ho).2 (hsame ▸ List.mem_cons_self)

/-- The roles of a description that passes the check do not get in each other's way. -/
theorem spec_of_check {d : Description} (h : d.check = .ok ()) :
    (∀ r ∈ d.roles, Namespace.Simple r.ns) ∧ (d.roles.map (·.ns)).Nodup := by
  obtain ⟨_, -, h⟩ := Proofs.bind_eq_ok h
  obtain ⟨_, -, h⟩ := Proofs.bind_eq_ok h
  have hroles : checkRoles [] d.roles = .ok () := by
    cases hseed : d.seed with
    | none =>
        rw [hseed] at h
        obtain ⟨_, hroles, -⟩ := Proofs.bind_eq_ok h
        exact hroles
    | some seed =>
        rw [hseed] at h
        obtain ⟨_, -, h⟩ := Proofs.bind_eq_ok h
        obtain ⟨_, hroles, -⟩ := Proofs.bind_eq_ok h
        exact hroles
  obtain ⟨hsimple, hnodup⟩ := spec_of_checkRoles hroles
  exact ⟨fun r hr => (hsimple r hr).1, hnodup⟩

end RolePlan.Description
