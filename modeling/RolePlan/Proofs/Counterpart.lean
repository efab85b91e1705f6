import RolePlan.Composition
import RolePlan.Proofs.Completion

/-!
# The counterpart of a role in a seed

A seed is asked for a role in two ways. The values that it fixes are looked up by the ids of all its
resources; what the plan's id of the role replaces is the id of a resource that stands for a role.
The two answers speak of one resource exactly if the name of the role is borne by a resource that
stands for a role, or by none at all.
-/

namespace RolePlan.Seed

def fixed (r : Resource) : Table Value := ⟨r.memberProperties.entries.filter (·.2.lookedUp?.isNone)⟩

/-- The resource stands for the role of this name: its id is what the role's id in the plan
replaces, and it is not copied into the plan itself. -/
structure Counterpart (seed : Template) (role : String) (entry : String × Resource) : Prop where
  mem : entry ∈ seed.resources.entries
  isRole : entry.2.isRole = true
  named : Text.sameIgnoringCase entry.1 role = true
  connects : ∀ (r : Description.Role) (p : Plan), r.name = role →
    r.connect seed p =
      { p with template := (updateReferences p.template entry.1 (p.roleId r.ns)).2 }
  notCopied : ∀ t u, addResources seed t = .ok u →
    (entry.1 ∈ u.resources.names ↔ entry.1 ∈ t.resources.names)

variable {seed : Template} {role : String} {entry : String × Resource}

theorem mem_candidates_iff : entry ∈ candidates seed role ↔
    entry ∈ seed.resources.entries ∧ Text.sameIgnoringCase entry.1 role = true :=
  List.mem_filter

theorem mem_roles_iff :
    entry ∈ roles seed ↔ entry ∈ seed.resources.entries ∧ entry.2.isRole = true :=
  List.mem_filter

/-! ## Two ways of looking up -/

/-- The role that is found is the first candidate that stands for one. -/
theorem findRole?_eq_find?_candidates :
    findRole? seed role = (candidates seed role).find? (·.2.isRole) := by
  rw [findRole?, roles, candidates, List.find?_filter, List.find?_filter]
  congr 1
  funext entry
  exact decide_eq_decide.mpr and_comm

theorem fixedProperties?_eq_none_iff :
    fixedProperties? seed role = .ok none ↔ candidates seed role = [] := by
  rw [fixedProperties?]
  split
  · next hnone => simp [hnone]
  · next hone => simp [hone]
  · next hsome _ => simpa using hsome

theorem exists_of_fixedProperties? {values : Table Value}
    (h : fixedProperties? seed role = .ok (some values)) :
    ∃ entry, candidates seed role = [entry] ∧ values = fixed entry.2 := by
  rw [fixedProperties?] at h
  split at h
  · cases h
  · next id resource hcandidates =>
      cases h
      exact ⟨(id, resource), hcandidates, rfl⟩
  · cases h

/-! ## Counterparts -/

/-- In a seed of different ids, no copy takes the id of a resource that stands for a role. -/
theorem mem_names_addResources_iff (h : seed.resources.Distinct)
    (hentry : entry ∈ seed.resources.entries) (hrole : entry.2.isRole = true) {t u : Template}
    (hu : addResources seed t = .ok u) :
    entry.1 ∈ u.resources.names ↔ entry.1 ∈ t.resources.names := by
  rw [addResources_eq h] at hu
  cases hu
  rw [withResources, Table.complete, Table.names_extend, List.mem_append, or_iff_left_iff_imp]
  intro hcopied
  obtain ⟨other, hother, hid⟩ := List.mem_map.mp hcopied
  have htop := List.mem_filter.mp (List.mem_filter.mp hother).1
  have hfound := Table.find?_of_mem h htop.1
  rw [hid, Table.find?_of_mem h hentry] at hfound
  rw [← Option.some.inj hfound, hrole] at htop
  exact absurd htop.2 (by decide)

/-- A resource that alone bears the name of a role, and stands for one, is the counterpart. -/
theorem counterpart_of_candidates (h : seed.resources.Distinct)
    (hcandidates : candidates seed role = [entry]) (hrole : entry.2.isRole = true) :
    Counterpart seed role entry := by
  have hentry := mem_candidates_iff.mp (hcandidates ▸ List.mem_singleton_self entry)
  have hfound : findRole? seed role = some entry := by
    rw [findRole?_eq_find?_candidates, hcandidates]
    exact List.find?_cons_of_pos hrole
  refine ⟨hentry.1, hrole, hentry.2, fun r p hname => ?_, fun t u hu =>
    mem_names_addResources_iff h hentry.1 hrole hu⟩
  rw [Description.Role.connect, hname, hfound]

/-- The values that a seed fixes for a role are those of its counterpart, and there are none without
a counterpart, exactly if a resource that bears the name of the role stands for a role wherever any
resource bears it. -/
theorem lookups_agree_iff (h : seed.resources.Distinct) (role : String) :
    ((∀ values, fixedProperties? seed role = .ok (some values) → values.entries ≠ [] →
        ∃ entry, Counterpart seed role entry ∧ values = fixed entry.2) ∧
      ((∀ entry ∈ roles seed, Text.sameIgnoringCase entry.1 role = false) →
        fixedProperties? seed role = .ok none)) ↔
    ((∃ entry ∈ seed.resources.entries, Text.sameIgnoringCase entry.1 role = true) →
      ∃ entry ∈ roles seed, Text.sameIgnoringCase entry.1 role = true) := by
  constructor
  · rintro ⟨-, hnone⟩ ⟨entry, hentry, hnamed⟩
    by_contra hno
    simp only [not_exists, not_and, Bool.not_eq_true] at hno
    have hempty := fixedProperties?_eq_none_iff.mp (hnone hno)
    exact List.not_mem_nil (hempty ▸ mem_candidates_iff.mpr ⟨hentry, hnamed⟩)
  · intro hbearers
    refine ⟨fun values hvalues _ => ?_, fun hno => ?_⟩
    · obtain ⟨entry, hcandidates, rfl⟩ := exists_of_fixedProperties? hvalues
      have hentry := mem_candidates_iff.mp (hcandidates ▸ List.mem_singleton_self entry)
      obtain ⟨other, hother, hnamed⟩ := hbearers ⟨entry, hentry⟩
      have hrole := mem_roles_iff.mp hother
      have hsame := mem_candidates_iff.mpr ⟨hrole.1, hnamed⟩
      rw [hcandidates, List.mem_singleton] at hsame
      exact ⟨entry, counterpart_of_candidates h hcandidates (hsame ▸ hrole.2), rfl⟩
    · refine fixedProperties?_eq_none_iff.mpr (List.filter_eq_nil_iff.mpr fun entry he hnamed => ?_)
      obtain ⟨other, hother, hnamed⟩ := hbearers ⟨entry, he, hnamed⟩
      rw [hno other hother] at hnamed
      cases hnamed

/-- A seed with a network and a group whose member has an image of its own. The type of the member
decides whether the group stands for a role. -/
def imageSeed (memberType : String) : Template :=
  let member : Value := .object ⟨[("type", .string memberType),
    ("properties", .object ⟨[("image", .string "cirros"),
      ("flavor", .single "get_param" (.string "flavor"))]⟩)]⟩
  { resources := ⟨[
      ("Compute", {
        type := Resource.groupType
        properties := ⟨[(Resource.definitionName, .plain member)]⟩ }),
      ("compute-net", { type := "T" })]⟩ }

theorem lookups_agree_iff_imageSeed :
    let seed := imageSeed "Tuskar::compute"
    let values : Table Value := ⟨[("image", .string "cirros")]⟩
    seed.resources.Distinct ∧ fixedProperties? seed "COMPUTE" = .ok (some values) ∧
      (∃ entry, Counterpart seed "COMPUTE" entry ∧ values = fixed entry.2) ∧
      fixedProperties? seed "storage" = .ok none := by
  intro seed values
  have hdistinct : seed.resources.Distinct := by decide
  have hvalues : fixedProperties? seed "COMPUTE" = .ok (some values) := by rfl
  have hcompute : ∃ entry ∈ roles seed, Text.sameIgnoringCase entry.1 "COMPUTE" = true := by
    decide +kernel
  have hstorage : ∀ entry ∈ seed.resources.entries,
      Text.sameIgnoringCase entry.1 "storage" = false := by
    decide +kernel
  refine ⟨hdistinct, hvalues, ?_, ?_⟩
  · exact ((lookups_agree_iff hdistinct "COMPUTE").mpr fun _ => hcompute).1 values hvalues
      (List.cons_ne_nil _ _)
  · refine ((lookups_agree_iff hdistinct "storage").mpr ?_).2 fun entry he =>
      hstorage entry (mem_roles_iff.mp he).1
    rintro ⟨entry, he, hnamed⟩
    rw [hstorage entry he] at hnamed
    cases hnamed

/-- A group that stands for no role, but bears the name of one, fixes values for it. -/
theorem fixedProperties?_imageSeed :
    let seed := imageSeed "OS::Nova::Server"
    let values : Table Value := ⟨[("image", .string "cirros")]⟩
    roles seed = [] ∧ fixedProperties? seed "compute" = .ok (some values) := by
  intro seed values
  exact ⟨rfl, rfl⟩

end RolePlan.Seed
