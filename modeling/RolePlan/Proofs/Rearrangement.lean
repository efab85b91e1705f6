import RolePlan.Proofs.Building
import RolePlan.Proofs.Enumeration
import RolePlan.Proofs.Faults
import RolePlan.Proofs.Removal
import RolePlan.Proofs.Sameness

/-!
# Roles in another order

Without a seed, a plan holds for each role what the role brings along and the values that are set
for it, and none of it depends on the other roles. So the roles can be added in any order: either
none of the orders succeeds, or all of them lead to the same plan up to the order of its tables.
-/

namespace RolePlan

namespace Description

open Proofs (Agree)

/-! ## Values -/

/-- The values that are set take the places of others, name by name. -/
theorem find?_setValues {values : List (String × Value)} (hnodup : (values.map (·.1)).Nodup)
    {p q : Plan} (h : setValues values p = .ok q) (name : String) :
    q.environment.parameters.find? name =
      (p.environment.parameters.find? name).map fun old => (values.lookup name).getD old := by
  induction values generalizing p with
  | nil =>
      cases h
      simp
  | cons entry rest ih =>
      obtain ⟨hnew, hrest⟩ := List.nodup_cons.mp hnodup
      have hm : entry.1 ∈ p.environment.parameters.names :=
        (eq_of_setValues h).1 entry List.mem_cons_self
      rw [setValues_cons_of_mem hm] at h
      rw [ih hrest h, Plan.withValue, Table.find?_put, List.lookup_cons]
      by_cases hname : name = entry.1
      · obtain ⟨old, hold⟩ := Table.exists_find? (hname ▸ hm)
        rw [if_pos hname, hold, Table.lookup_of_not_mem (hname ▸ hnew), beq_iff_eq.mpr hname]
        rfl
      · rw [if_neg hname, beq_eq_false_iff_ne.mpr hname]

/-- The value that a plan has for a name of one of its roles: the one that is set for the role, or
else the first value of the parameter. -/
def Role.valueIn (r : Role) (a : Plan.Addition) (name : String) : Option Value :=
  ((Plan.firstValues a.declared).lookup name).map fun first => (r.values.lookup name).getD first

theorem find?_addTo_iff {r : Role} (hvalues : (r.values.map (·.1)).Nodup) {template : Template}
    (htemplate : template.Distinct) {fixed : Option (Table Value)} {p q : Plan}
    (h : r.addTo template fixed p = .ok q) (name : String) (v : Value) :
    let a : Plan.Addition :=
      ⟨r.ns, template, r.registryFilename, fixed.getD .empty, p.scaling⟩
    q.environment.parameters.find? name = some v ↔
      p.environment.parameters.find? name = some v ∨ r.valueIn a name = some v := by
  intro a
  obtain ⟨hfree, hset⟩ := free_of_addTo htemplate h
  have hfirst : (p.withRole r.ns template r.registryFilename (fixed.getD .empty)
      ).environment.parameters.find? name =
        (p.environment.parameters.find? name).or ((Plan.firstValues a.declared).lookup name) :=
    Table.find?_extend _ _ _
  rw [find?_setValues hvalues hset, hfirst, Role.valueIn]
  cases hown : Namespace.owns r.ns name with
  | true =>
      -- Before, no name of the namespace is there.
      have hnone : p.environment.parameters.find? name = none := by
        rw [Table.find?_eq_none_iff]
        intro hm
        rw [hfree.values name hm] at hown
        cases hown
      simp [hnone]
  | false =>
      have hdeclared : (Plan.firstValues a.declared).lookup name = none := by
        refine Table.lookup_of_not_mem fun hm => ?_
        rw [Plan.map_fst_firstValues] at hm
        have howned : Namespace.owns r.ns name = true := Plan.owns_declared hm
        rw [hown] at howned
        cases howned
      have hset : r.values.lookup name = none := by
        refine Table.lookup_of_not_mem fun hm => ?_
        rw [Role.values, List.map_map] at hm
        obtain ⟨entry, -, rfl⟩ := List.mem_map.mp hm
        rw [Function.comp_apply, Namespace.owns_apply] at hown
        cases hown
      simp [hdeclared, hset]

variable {d : Description} {seed : Option Template} {sources others : List (Role × Answer)}
  {p q : Plan}

/-- Adding a source changes nothing that a plan says beside its tables, and gives it the values of
one more role. -/
theorem of_addSource {source : Role × Answer} (hsource : source.1.Maps)
    (hp : p.scaling = d.scalingEnabled) (h : addSource seed p source = .ok q) :
    q.scaling = d.scalingEnabled ∧ q.template.header = p.template.header ∧
      ∀ name v, q.environment.parameters.find? name = some v ↔
        p.environment.parameters.find? name = some v ∨
          ∃ a, d.Supplies seed source a ∧ source.1.valueIn a name = some v := by
  obtain ⟨r, answer⟩ := source
  obtain ⟨template, htemplate, h⟩ := Proofs.bind_eq_ok h
  obtain ⟨fixed, hfixed, h⟩ := Proofs.bind_eq_ok h
  have hdistinct := (Answer.loaded_of_template htemplate).wellFormed.toDistinct
  have hvalues := find?_addTo_iff hsource.nodup_values hdistinct h
  obtain ⟨-, hset⟩ := free_of_addTo hdistinct h
  obtain ⟨-, t, -, rfl⟩ := eq_of_setValues hset
  refine ⟨hp, rfl, fun name v => (hvalues name v).trans (or_congr_right ?_)⟩
  simp only [supplies_iff htemplate hfixed, exists_eq_left, hp]

/-- Each source gives the plan its own values, whatever the other ones are. -/
theorem of_addSources (hsources : ∀ source ∈ sources, source.1.Maps)
    (hp : p.scaling = d.scalingEnabled)
    (h : sources.foldlM (addSource seed) p = .ok q) :
    q.template.header = p.template.header ∧
      ∀ name v, q.environment.parameters.find? name = some v ↔
        p.environment.parameters.find? name = some v ∨
          ∃ source ∈ sources, ∃ a, d.Supplies seed source a ∧
            source.1.valueIn a name = some v := by
  induction sources generalizing p with
  | nil =>
      cases h
      simp
  | cons source rest ih =>
      rw [List.foldlM_cons] at h
      obtain ⟨r, hfirst, hrest⟩ := Proofs.bind_eq_ok h
      obtain ⟨hsource, hothers⟩ := List.forall_mem_cons.mp hsources
      obtain ⟨hr, hheader, hvalues⟩ := of_addSource hsource hp hfirst
      obtain ⟨hheader', hvalues'⟩ := ih hothers hr hrest
      refine ⟨hheader'.trans hheader, fun name v => ?_⟩
      rw [hvalues', hvalues, or_assoc, List.exists_mem_cons_iff]

/-! ## Plans -/

/-- Plans that consist of the same roles, with the same values, are the same up to order. -/
theorem rearranges_of_consistsOf {roles roles' : List Plan.Addition} (hp : p.ConsistsOf roles)
    (hq : q.ConsistsOf roles') (hroles : roles.Perm roles')
    (hheader : p.template.header = q.template.header) (hscaling : p.scaling = q.scaling)
    (hp' : p.environment.parameters.Distinct) (hq' : q.environment.parameters.Distinct)
    (hvalues : ∀ name, p.environment.parameters.find? name = q.environment.parameters.find? name) :
    p.Rearranges q where
  header := hheader
  parameters := hp.parameters ▸ hq.parameters ▸ hroles.flatMap_right _
  resources := hp.resources ▸ hq.resources ▸ hroles.map _
  outputs := hp.outputs ▸ hq.outputs ▸ hroles.flatMap_right _
  values := Table.perm_of_find? hp' hq' fun name value => by rw [hvalues]
  registry := hp.registry ▸ hq.registry ▸ hroles.map _
  scaling := hscaling

theorem Maps.wellFormed (hd : d.Maps) : d.WellFormed := by
  refine ⟨(Value.wellFormed_object_iff.mp hd.values).2, fun r hr entry he => ?_⟩
  obtain ⟨old, ho, rfl⟩ := List.mem_map.mp he
  exact (Value.wellFormed_object_iff.mp (hd.ofRoles r hr)).2 old ho

/-- Where the sources are apart, nothing that goes wrong depends on their order. -/
theorem exists_addSources (hsimple : ∀ source ∈ sources, Namespace.Simple source.1.ns)
    (hnodup : (sources.map (·.1.ns)).Nodup) (hperm : sources.Perm others)
    (h : sources.foldlM (addSource seed) d.emptyPlan = .ok p) :
    ∃ q, others.foldlM (addSource seed) d.emptyPlan = .ok q ∧
      ∃ roles roles', p.ConsistsOf roles ∧ q.ConsistsOf roles' ∧ roles.Perm roles' ∧
        p.scaling = q.scaling := by
  have hexplains := explains_addApart d seed hsimple hnodup
  have hexplains' := explains_addApart d seed
    (fun source hm => hsimple source (hperm.mem_iff.mpr hm)) ((hperm.map _).nodup_iff.mp hnodup)
  rw [h] at hexplains
  obtain ⟨⟨hp, roles, hroles, hmem⟩, hnone⟩ := hexplains
  cases hresult : others.foldlM (addSource seed) d.emptyPlan with
  | error e =>
      obtain ⟨source, hm, hfault⟩ := hexplains'.of_error hresult
      exact absurd ⟨source, hperm.mem_iff.mpr hm, hfault⟩ (hnone e)
  | ok q =>
      rw [hresult] at hexplains'
      obtain ⟨⟨hq, roles', hroles', hmem'⟩, -⟩ := hexplains'
      refine ⟨q, rfl, roles, roles', hroles, hroles', ?_, hp.trans hq.symm⟩
      refine (List.perm_ext_iff_of_nodup (List.Nodup.of_map _ hroles.namespaces)
        (List.Nodup.of_map _ hroles'.namespaces)).mpr fun a => ?_
      simp only [hmem, hmem', hperm.mem_iff]

/-- Where the sources are apart, they can be added in any order. -/
theorem exists_rearranges (hsimple : ∀ source ∈ sources, Namespace.Simple source.1.ns)
    (hnodup : (sources.map (·.1.ns)).Nodup) (hd : d.Maps)
    (hroles : ∀ source ∈ sources, source.1 ∈ d.roles) (hperm : sources.Perm others)
    (h : d.planOf { seed := none, roles := sources } = .ok p) :
    ∃ q, d.planOf { seed := none, roles := others } = .ok q ∧ p.Rearranges q := by
  have hroles' : ∀ source ∈ others, source.1 ∈ d.roles :=
    fun source hm => hroles source (hperm.mem_iff.mpr hm)
  have hportable := portable_planOf hd.wellFormed hroles h
  obtain ⟨p₀, hadd, hset⟩ := Proofs.bind_eq_ok (f := setValues d.values)
    (show sources.foldlM (addSource none) d.emptyPlan >>= setValues d.values = .ok p from h)
  obtain ⟨q₀, hadd', roles, roles', hp₀, hq₀, hsame, hscaling⟩ :=
    exists_addSources hsimple hnodup hperm hadd
  obtain ⟨hheader, hfind⟩ :=
    of_addSources (fun source hm => hd.ofRoles _ (hroles source hm)) rfl hadd
  obtain ⟨hheader', hfind'⟩ :=
    of_addSources (fun source hm => hd.ofRoles _ (hroles' source hm)) rfl hadd'
  have hvalues : ∀ name,
      p₀.environment.parameters.find? name = q₀.environment.parameters.find? name := by
    intro name
    refine Option.ext fun v => ?_
    simp only [hfind, hfind', hperm.mem_iff]
  -- The names that can be set are there in either order.
  have hnames : ∀ name, name ∈ p₀.environment.parameters.names ↔
      name ∈ q₀.environment.parameters.names := by
    intro name
    rw [hp₀.values, hq₀.values, hp₀.mem_parameters_iff, hq₀.mem_parameters_iff]
    simp only [hsame.mem_iff]
  obtain ⟨hknown, t, ht, rfl⟩ := eq_of_setValues hset
  obtain ⟨q, hset'⟩ := exists_setValues fun entry he => (hnames _).mp (hknown entry he)
  have hplan' : d.planOf { seed := none, roles := others } = .ok q := by
    change others.foldlM (addSource none) d.emptyPlan >>= setValues d.values = .ok q
    rw [hadd']
    exact hset'
  have hportable' := portable_planOf hd.wellFormed hroles' hplan'
  obtain ⟨-, u, hu, rfl⟩ := eq_of_setValues hset'
  refine ⟨_, hplan', rearranges_of_consistsOf (hp₀.withValues ht) (hq₀.withValues hu) hsame
    (hheader.trans hheader'.symm) hscaling hportable.environment.parameters
    hportable'.environment.parameters fun name => ?_⟩
  rw [find?_setValues hd.nodup_values hset, find?_setValues hd.nodup_values hset', hvalues]

section Builds

variable {S : Type} [Storage (StateM S)] {good : S → Prop} {s : S}

/-- Without a seed, the roles can be listed in any order. -/
theorem build_reordered_roles (hcheck : d.check = .ok ()) (hd : d.Maps)
    (hsteady : Storage.Steady good) (hs : good s) (hseed : d.seed = none) {roles : List Role}
    (hroles : d.roles.Perm roles) :
    let e := { d with roles }
    ((∃ p, (d.build.on s).1 = .ok p) ↔ ∃ q, (e.build.on s).1 = .ok q) ∧
      ∀ p q, (d.build.on s).1 = .ok p → (e.build.on s).1 = .ok q → p.same q = true := by
  intro e
  let answered (r : Role) : Role × Answer := (r, Storage.text s r.template)
  have hsources : ∀ roles : List Role, (roles.map answered).map (·.1) = roles := by
    intro roles
    rw [List.map_map]
    exact roles.map_id
  obtain ⟨hsimple, hnodup⟩ := apart_of_check hcheck (hsources d.roles)
  have hin : ∀ source ∈ d.roles.map answered, source.1 ∈ d.roles :=
    fun source hm => hsources d.roles ▸ List.mem_map_of_mem hm
  have hperm : (d.roles.map answered).Perm (roles.map answered) := hroles.map answered
  have hd' : (d.build.on s).1 = d.planOf { seed := none, roles := d.roles.map answered } :=
    build_of_steady hsteady hs hseed
  have he : (e.build.on s).1 = d.planOf { seed := none, roles := roles.map answered } :=
    build_of_steady (d := e) hsteady hs hseed
  have hin' : ∀ source ∈ roles.map answered, source.1 ∈ d.roles :=
    fun source hm => hin source (hperm.mem_iff.mpr hm)
  rw [hd', he]
  refine ⟨⟨fun ⟨p, hp⟩ => ?_, fun ⟨q, hq⟩ => ?_⟩, fun p q hp hq => ?_⟩
  · obtain ⟨q, hq, -⟩ := exists_rearranges hsimple hnodup hd hin hperm hp
    exact ⟨q, hq⟩
  · obtain ⟨p, hp, -⟩ := exists_rearranges (fun source hm => hsimple source (hperm.mem_iff.mpr hm))
      ((hperm.map _).nodup_iff.mp hnodup) hd hin' hperm.symm hq
    exact ⟨p, hp⟩
  · obtain ⟨q', hq', hrearranges⟩ := exists_rearranges hsimple hnodup hd hin hperm hp
    cases hq.symm.trans hq'
    exact hrearranges.same (portable_planOf hd.wellFormed hin hp)

/-- What holds of the plans that are built with the roles in two orders, holds of all results. -/
theorem outcomes_reordered_roles (hcheck : d.check = .ok ()) (hd : d.Maps)
    (hsteady : Storage.Steady good) (hs : good s) (hseed : d.seed = none) {roles : List Role}
    (hroles : d.roles.Perm roles) {x y : Except Error Plan} (hx : d.Outcome s x)
    (hy : Outcome { d with roles } s y) :
    ((∃ p, x = .ok p) ↔ ∃ q, y = .ok q) ∧
      ∀ p q, x = .ok p → y = .ok q → p.same q = true := by
  have he : Maps { d with roles } :=
    ⟨hd.values, fun r hr => hd.ofRoles r (hroles.mem_iff.mpr hr)⟩
  simp only [(hx.agree_build hd).eq_ok_iff, (hy.agree_build he).eq_ok_iff]
  exact build_reordered_roles hcheck hd hsteady hs hseed hroles

/-- A plan does not depend on the orders in which the hash maps of a description and those that are
made on the way are gone through: the results are all one plan, down to the order of its tables, or
errors of one kind. Without a seed, and on a storage whose texts do not change as they are read, the
order of the roles does not matter either, up to the order of the tables. -/
theorem build_order_independent (hcheck : d.check = .ok ()) (hd : d.Maps) (s : S) :
    d.Outcome s (d.build.on s).1 ∧
    (∀ x y, d.Outcome s x → d.Outcome s y → Agree x y) ∧
    (d.seed = none → ∀ good, Storage.Steady good → good s → ∀ roles, d.roles.Perm roles →
      ∀ x y, d.Outcome s x → Outcome { d with roles } s y →
        ((∃ p, x = .ok p) ↔ ∃ q, y = .ok q) ∧
        ∀ p q, x = .ok p → y = .ok q → p.same q = true) :=
  ⟨(Reorders.refl d).outcome_build s, fun _ _ hx hy => hx.agree hd hy,
    fun hseed _ hsteady hs _ hroles _ _ hx hy =>
      outcomes_reordered_roles hcheck hd hsteady hs hseed hroles hx hy⟩

end Builds

def groupedDescription : Description :=
  { pairDescription with
    scaling := none
    parameters := some ⟨[("a-1::p", .string "y"), ("a-1::count", .int 2)]⟩ }

def groupedPlan : Plan :=
  (((groupedDescription.emptyPlan.withRole "a-1" Plan.sampleRole "provider-a-1.yaml"
    .empty).withRole "b-1" {} "provider-b-1.yaml" .empty).withValue "a-1::p"
      (.string "y")).withValue "a-1::count" (.int 2)

theorem build_groupedDescription :
    (groupedDescription.build.on pairShelf).1 = .ok groupedPlan := by
  have htemplate : Answer.template (.ok Plan.sampleText) = .ok Plan.sampleRole :=
    Plan.parse_sampleText
  have hsources : (groupedDescription.roles.map fun r => (r, Storage.text pairShelf r.template)) =
      [({ name := "a", version := 1, template := "a.yaml" }, .ok Plan.sampleText),
        ({ name := "b", version := 1, template := "b.yaml" }, .ok "")] := rfl
  rw [build_of_steady Shelf.keeping.read rfl rfl, planOf_eq, hsources, List.foldlM_cons,
    addSource_eq, htemplate]
  rfl

theorem build_order_independent_groupedDescription :
    groupedDescription.check = .ok () ∧ groupedDescription.Maps ∧
      ({ groupedDescription with
        parameters := some ⟨[("a-1::count", .int 2), ("a-1::p", .string "y")]⟩
      }.build.on pairShelf).1 = .ok groupedPlan ∧
      ∃ q, ({ groupedDescription with
        roles := groupedDescription.roles.reverse }.build.on pairShelf).1 = .ok q ∧
          groupedPlan.same q = true := by
  have hcheck : groupedDescription.check = .ok () := rfl
  have hmaps : groupedDescription.Maps := by
    refine ⟨Value.wellFormed_object_iff.mpr ⟨by decide, ?_⟩, ?_⟩
    · simp [groupedDescription, Value.WellFormed]
    · simp [groupedDescription, pairDescription, Role.Maps, Value.wellFormed_object_iff,
        Table.Distinct]
  obtain ⟨hbuilt, hsame, hroles⟩ := build_order_independent hcheck hmaps pairShelf
  rw [build_groupedDescription] at hbuilt
  have hvalues : groupedDescription.Reorders { groupedDescription with
      parameters := some ⟨[("a-1::count", .int 2), ("a-1::p", .string "y")]⟩ } :=
    .intro (.swap _ _ _) (List.forall₂_same.mpr fun _ _ => .intro (.refl _))
  have hagree := hsame _ _ hbuilt (hvalues.outcome_build pairShelf)
  obtain ⟨hiff, hequal⟩ := hroles rfl _ Shelf.keeping.read rfl _
    (List.reverse_perm groupedDescription.roles).symm _ _ hbuilt
    ((Reorders.refl { groupedDescription with
      roles := groupedDescription.roles.reverse }).outcome_build pairShelf)
  obtain ⟨q, hq⟩ := hiff.mp ⟨_, rfl⟩
  exact ⟨hcheck, hmaps, (hagree.eq_ok_iff _).mp rfl, q, hq, hequal _ q rfl hq⟩

end Description

end RolePlan
