import RolePlan.Proofs.Blame
import RolePlan.Proofs.Checked
import RolePlan.Proofs.Contents
import RolePlan.Proofs.Seed
import RolePlan.Proofs.Sources
import RolePlan.Storage

/-!
# What stands in the way of a plan

The plan of a description that passes the check can fail to be built for six reasons only. The
roles never collide, whatever their names and templates, and nothing that is taken over from a seed
fails to be added.
-/

namespace RolePlan.Description

open Proofs (Explains)

def Sources.answers (src : Sources) : List Answer := src.seed.toList ++ src.roles.map (·.2)

/-- With this seed and this answer for its template, the role is added to a plan like that. -/
inductive Supplies (d : Description) (seed : Option Template) :
    Role × Answer → Plan.Addition → Prop where
  | intro {r : Role} {answer : Answer} {template : Template} {fixed : Option (Table Value)}
      (htemplate : answer.template = .ok template) (hfixed : fixedFor seed r = .ok fixed) :
      Supplies d seed (r, answer)
        ⟨r.ns, template, r.registryFilename, fixed.getD .empty, d.scalingEnabled⟩

/-- A source whose parts can be read supplies one role only. -/
theorem supplies_iff {d : Description} {seed : Option Template} {r : Role} {answer : Answer}
    {template : Template} {fixed : Option (Table Value)}
    (htemplate : answer.template = .ok template) (hfixed : fixedFor seed r = .ok fixed)
    (a : Plan.Addition) :
    d.Supplies seed (r, answer) a ↔
      a = ⟨r.ns, template, r.registryFilename, fixed.getD .empty, d.scalingEnabled⟩ := by
  refine ⟨fun h => ?_, fun h => h ▸ .intro htemplate hfixed⟩
  cases h with
  | intro htemplate' hfixed' =>
      cases htemplate.symm.trans htemplate'
      cases hfixed.symm.trans hfixed'
      rfl

/-- What is wrong with a role by itself. -/
inductive Role.Fault (r : Role) (a : Plan.Addition) : Error → Prop where
  /-- The role declares a count of its own, which the seed does not fix, and is to have a group. -/
  | count (hscaling : a.scaling = true) (hcount : Resource.countName ∈ a.role.parameters.names)
      (hfree : Resource.countName ∉ a.overrides.names) :
      Role.Fault r a (.duplicate .parameter (Namespace.countName a.ns))
  /-- A value is set for a parameter that the role does not have, or that the seed fixes. -/
  | value {name : String} (hname : name ∈ (r.parameters.getD .empty).names)
      (hoffer : ¬ a.Offers name) :
      Role.Fault r a (.notFound .environmentParameter (Namespace.apply a.ns name))

/-- The name is one that a role of the plan has in its namespace, or that comes from the top level
of the seed. -/
def Offered (d : Description) (src : Sources) (seed : Option Template) (name : String) : Prop :=
  (∃ source ∈ src.roles, ∃ a, Supplies d seed source a ∧
      ∃ q, a.Offers q ∧ name = Namespace.apply a.ns q) ∨
    ∃ t, seed = some t ∧ name ∈ t.parameters.names ∧ name ∉ Seed.roleParameters t

/-- What stands in the way of a plan, with the error that tells of it. -/
inductive Fault (d : Description) (src : Sources) : Error → Prop where
  /-- The seed or the template of a role cannot be read. -/
  | unread {fault : StorageFault} (h : .error fault ∈ src.answers) : Fault d src (.storage fault)
  /-- The text of the seed or of a role describes no template. -/
  | unparsed {text : String} {e : Error} (h : .ok text ∈ src.answers)
      (he : Template.parse text = .error e) : Fault d src e
  /-- Several resources of the seed have the name of a role, ignoring case. -/
  | ambiguous {seed : Template} {r : Role} (hseed : src.parsedSeed = .ok (some seed))
      (hr : r ∈ d.roles)
      (h : 2 ≤ (seed.resources.names.filter (Text.sameIgnoringCase · r.name)).length) :
      Fault d src
        (.ambiguous r.name (seed.resources.names.filter (Text.sameIgnoringCase · r.name)))
  | role {seed : Option Template} {source : Role × Answer} {a : Plan.Addition} {e : Error}
      (hseed : src.parsedSeed = .ok seed) (hsource : source ∈ src.roles)
      (ha : Supplies d seed source a) (h : source.1.Fault a e) : Fault d src e
  /-- A value is set for a name that neither a role has in its namespace nor the seed at its top
  level. -/
  | value {seed : Option Template} {name : String} (hseed : src.parsedSeed = .ok seed)
      (hname : name ∈ d.values.map (·.1)) (hoffered : ¬ d.Offered src seed name) :
      Fault d src (.notFound .environmentParameter name)

/-! ## Single steps -/

theorem Answer.template_eq_error_iff {a : Answer} {e : Error} :
    a.template = .error e ↔ (∃ fault, a = .error fault ∧ e = .storage fault) ∨
      ∃ text, a = .ok text ∧ Template.parse text = .error e := by
  cases a with
  | error fault =>
      have htemplate : Answer.template (.error fault) = .error (.storage fault) := rfl
      rw [htemplate]
      simp [eq_comm]
  | ok text =>
      rw [Answer.template_ok]
      simp

theorem map_fst_candidates (seed : Template) (role : String) :
    (Seed.candidates seed role).map (·.1) =
      seed.resources.names.filter (Text.sameIgnoringCase · role) := by
  rw [Seed.candidates, Table.names, List.filter_map]
  rfl

theorem fixedFor_eq_error_iff {seed : Option Template} {r : Role} {e : Error} :
    fixedFor seed r = .error e ↔ ∃ t, seed = some t ∧
      2 ≤ (t.resources.names.filter (Text.sameIgnoringCase · r.name)).length ∧
      e = .ambiguous r.name (t.resources.names.filter (Text.sameIgnoringCase · r.name)) := by
  cases seed with
  | none => simp [fixedFor]
  | some t =>
      simp only [fixedFor, Seed.fixedProperties?, Option.some.injEq, exists_eq_left',
        ← map_fst_candidates, List.length_map]
      match Seed.candidates t r.name with
      | [] => simp
      | [_] => simp
      | _ :: _ :: _ => simp [eq_comm]

theorem explains_setValues (values : List (String × Value)) (p : Plan) :
    Explains
      (fun e => ∃ entry ∈ values, entry.1 ∉ p.environment.parameters.names ∧
        e = .notFound .environmentParameter entry.1)
      (fun q => ∃ t : Table Value, t.names = p.environment.parameters.names ∧
        q = { p with environment := { p.environment with parameters := t } })
      (setValues values p) := by
  refine Explains.foldlM (P := fun _ q => ∃ t : Table Value,
    t.names = p.environment.parameters.names ∧
      q = { p with environment := { p.environment with parameters := t } })
    (fun done entry _ q hq => ?_) ⟨p.environment.parameters, rfl, rfl⟩
  obtain ⟨t, ht, rfl⟩ := hq
  rw [Plan.setValue, Environment.setParameter]
  by_cases hm : entry.1 ∈ p.environment.parameters.names
  · have hin : t.contains entry.1 = true := Table.contains_iff_mem_names.mpr (ht ▸ hm)
    rw [if_pos hin]
    refine ⟨⟨t.put entry.1 entry.2, ?_, rfl⟩, fun e he => he.1 hm⟩
    rw [Table.names_put_of_mem (ht ▸ hm), ht]
  · have hout : ¬ t.contains entry.1 = true :=
      fun hin => hm (ht ▸ Table.contains_iff_mem_names.mp hin)
    rw [if_neg hout]
    exact ⟨hm, rfl⟩

theorem eq_of_setValues {values : List (String × Value)} {p q : Plan}
    (h : setValues values p = .ok q) :
    (∀ entry ∈ values, entry.1 ∈ p.environment.parameters.names) ∧
      ∃ t : Table Value, t.names = p.environment.parameters.names ∧
        q = { p with environment := { p.environment with parameters := t } } := by
  have hexplains := explains_setValues values p
  rw [h] at hexplains
  obtain ⟨hq, hnone⟩ := hexplains
  refine ⟨fun entry he => ?_, hq⟩
  by_contra hm
  exact hnone _ ⟨entry, he, hm, rfl⟩

theorem template_of_setValues {values : List (String × Value)} {p q : Plan}
    (h : setValues values p = .ok q) : q.template = p.template := by
  obtain ⟨-, t, -, rfl⟩ := eq_of_setValues h
  rfl

theorem exists_setValues {values : List (String × Value)} {p : Plan}
    (h : ∀ entry ∈ values, entry.1 ∈ p.environment.parameters.names) :
    ∃ q, setValues values p = .ok q := by
  have hexplains := explains_setValues values p
  cases hset : setValues values p with
  | ok q => exact ⟨q, rfl⟩
  | error e =>
      obtain ⟨entry, he, hm, -⟩ := hexplains.of_error hset
      exact absurd (h entry he) hm

/-! ## Roles -/

theorem addRole_of_free {p : Plan} {ns : String} (hfree : p.Free ns) {role : Template}
    (hrole : role.Distinct) (filename : String) (overrides : Table Value) :
    p.addRole ns role filename overrides =
      if p.countClashes role overrides = true then
        .error (.duplicate .parameter (Namespace.countName ns))
      else .ok (p.withRole ns role filename overrides) := by
  rw [Plan.addRole, Plan.on_mergeRole hrole, Plan.isFree_iff.mpr hfree]
  cases p.countClashes role overrides <;> rfl

/-- A role is added where its namespace is free, and then its values are set. -/
theorem free_of_addTo {r : Role} {template : Template} (htemplate : template.Distinct)
    {fixed : Option (Table Value)} {p q : Plan} (h : r.addTo template fixed p = .ok q) :
    p.Free r.ns ∧
      setValues r.values (p.withRole r.ns template r.registryFilename (fixed.getD .empty)) =
        .ok q := by
  obtain ⟨p₁, hadd, hvalues⟩ := Proofs.bind_eq_ok h
  rw [Plan.addRole, Plan.on_mergeRole htemplate] at hadd
  split at hadd
  · next p' hon =>
      cases hadd
      split at hon
      · cases hon
      · next hfree =>
          split at hon
          · cases hon
          · cases hon
            rw [Bool.not_eq_false, Plan.isFree_iff] at hfree
            exact ⟨hfree, hvalues⟩
  · cases hadd

/-- A role is added to a plan of other roles unless something is wrong with it by itself. -/
theorem explains_addTo {p : Plan} {roles : List Plan.Addition} (h : p.ConsistsOf roles) {r : Role}
    (hns : Namespace.Simple r.ns) (hnew : r.ns ∉ roles.map (·.ns)) {template : Template}
    (htemplate : template.Distinct) (fixed : Option (Table Value)) :
    let a : Plan.Addition :=
      ⟨r.ns, template, r.registryFilename, fixed.getD .empty, p.scaling⟩
    Explains (r.Fault a) (fun q => q.ConsistsOf (roles ++ [a]) ∧ q.scaling = p.scaling)
      (r.addTo template fixed p) := by
  intro a
  have hfree := h.free hns hnew
  rw [Role.addTo, addRole_of_free hfree htemplate]
  by_cases hclash : p.countClashes template (fixed.getD .empty) = true
  · rw [if_pos hclash]
    obtain ⟨hscaling, hcount, hover⟩ := Plan.countClashes_iff.mp hclash
    exact .count hscaling hcount hover
  · rw [if_neg hclash]
    let q := p.withRole r.ns template r.registryFilename (fixed.getD .empty)
    have hq : q.ConsistsOf (roles ++ [a]) := h.withRole hns htemplate hfree _ _
    have hin : ∀ name, Namespace.apply r.ns name ∈ q.environment.parameters.names ↔
        a.Offers name := by
      intro name
      rw [hq.values]
      exact hq.apply_mem_parameters_iff (List.mem_append_right _ (List.mem_singleton_self a))
    refine (explains_setValues r.values q).imp (fun e => ⟨?_, ?_⟩) ?_
    · rintro ⟨entry, he, hout, rfl⟩
      obtain ⟨⟨name, v⟩, hset, rfl⟩ := List.mem_map.mp he
      rw [hin] at hout
      exact .value (List.mem_map_of_mem hset) hout
    · rintro (⟨hscaling, hcount, hover⟩ | ⟨hname, hoffer⟩)
      · exact absurd (Plan.countClashes_iff.mpr ⟨hscaling, hcount, hover⟩) hclash
      · obtain ⟨entry, hset, rfl⟩ := List.mem_map.mp hname
        exact ⟨_, List.mem_map_of_mem hset, fun hm => hoffer ((hin _).mp hm), rfl⟩
    · rintro _ ⟨t, ht, rfl⟩
      exact ⟨hq.withValues ht, rfl⟩

def SourceFault (d : Description) (seed : Option Template) (source : Role × Answer) (e : Error) :
    Prop :=
  source.2.template = .error e ∨ fixedFor seed source.1 = .error e ∨
    ∃ a, Supplies d seed source a ∧ source.1.Fault a e

def Holds (d : Description) (seed : Option Template) (done : List (Role × Answer)) (p : Plan) :
    Prop :=
  p.scaling = d.scalingEnabled ∧ ∃ roles, p.ConsistsOf roles ∧
    ∀ a, a ∈ roles ↔ ∃ source ∈ done, Supplies d seed source a

theorem explains_addSource {d : Description} {seed : Option Template} {p : Plan}
    {done : List (Role × Answer)} (hp : d.Holds seed done p) {source : Role × Answer}
    (hns : Namespace.Simple source.1.ns) (hnew : ∀ other ∈ done, other.1.ns ≠ source.1.ns) :
    Explains (d.SourceFault seed source) (d.Holds seed (done ++ [source]))
      (addSource seed p source) := by
  obtain ⟨r, answer⟩ := source
  obtain ⟨hscaling, roles, hroles, hmem⟩ := hp
  have hapart : r.ns ∉ roles.map (·.ns) := by
    intro hm
    obtain ⟨a, ha, hsame⟩ := List.mem_map.mp hm
    obtain ⟨other, ho, hsupplies⟩ := (hmem a).mp ha
    cases hsupplies
    exact hnew _ ho hsame
  rw [addSource]
  cases htemplate : answer.template with
  | error e => exact .inl htemplate
  | ok template =>
      cases hfixed : fixedFor seed r with
      | error e => exact .inr (.inl hfixed)
      | ok fixed =>
          let a : Plan.Addition :=
            ⟨r.ns, template, r.registryFilename, fixed.getD .empty, d.scalingEnabled⟩
          have hsupplies : ∀ b, Supplies d seed (r, answer) b ↔ b = a :=
            supplies_iff htemplate hfixed
          have hadd := explains_addTo hroles hns hapart
            (Answer.loaded_of_template htemplate).wellFormed.toDistinct fixed
          rw [hscaling] at hadd
          refine hadd.imp (fun e => ?_) fun q hq => ⟨hq.2, roles ++ [a], hq.1, fun b => ?_⟩
          · simp [SourceFault, htemplate, hfixed, hsupplies, a]
          · simp [hmem, hsupplies, or_and_right, exists_or]

/-- The roles of a plan fail only by themselves: their namespaces keep them apart. -/
theorem explains_addApart (d : Description) (seed : Option Template)
    {sources : List (Role × Answer)}
    (hsimple : ∀ source ∈ sources, Namespace.Simple source.1.ns)
    (hnodup : (sources.map (·.1.ns)).Nodup) :
    Explains (fun e => ∃ source ∈ sources, d.SourceFault seed source e) (d.Holds seed sources)
      (sources.foldlM (addSource seed) d.emptyPlan) := by
  have hempty : d.Holds seed [] d.emptyPlan :=
    ⟨rfl, [], .nil _ rfl rfl rfl rfl, by simp⟩
  refine Explains.foldlM (fun done source hfront p hp => explains_addSource hp ?_ ?_) hempty
  · exact hsimple _ (hfront.subset (List.mem_append_right _ (List.mem_singleton_self _)))
  · intro other ho hsame
    have hns : ((done ++ [source]).map (·.1.ns)).Nodup := hnodup.sublist (hfront.sublist.map _)
    rw [List.map_append, List.nodup_append] at hns
    exact hns.2.2 _ (List.mem_map_of_mem ho) _ (by simp) hsame

/-- The sources of a description that passes the check are apart. -/
theorem apart_of_check {d : Description} (hcheck : d.check = .ok ())
    {sources : List (Role × Answer)} (hsources : sources.map (·.1) = d.roles) :
    (∀ source ∈ sources, Namespace.Simple source.1.ns) ∧ (sources.map (·.1.ns)).Nodup := by
  obtain ⟨hsimple, hnodup⟩ := spec_of_check hcheck
  have hmap : sources.map (·.1.ns) = d.roles.map (·.ns) := by
    rw [← hsources, List.map_map]
    rfl
  exact ⟨fun source hm => hsimple _ (hsources ▸ List.mem_map_of_mem hm), hmap ▸ hnodup⟩

theorem explains_addSources {d : Description} (hcheck : d.check = .ok ()) (seed : Option Template)
    {sources : List (Role × Answer)} (hsources : sources.map (·.1) = d.roles) :
    Explains (fun e => ∃ source ∈ sources, d.SourceFault seed source e) (d.Holds seed sources)
      (sources.foldlM (addSource seed) d.emptyPlan) := by
  obtain ⟨hsimple, hnodup⟩ := apart_of_check hcheck hsources
  exact explains_addApart d seed hsimple hnodup

/-! ## Seeds -/

/-- Nothing that is taken over from a seed fails to be added, whatever the plan is. -/
theorem exists_inject (seed : Template) (p : Plan) :
    ∃ q, inject seed p = .ok q ∧
      (∀ name, name ∈ q.template.parameters.names ↔ name ∈ p.template.parameters.names ∨
        (name ∈ seed.parameters.names ∧ name ∉ Seed.roleParameters seed)) ∧
      (p.template.parameters.names = p.environment.parameters.names →
        q.template.parameters.names = q.environment.parameters.names) := by
  obtain ⟨t, hresources, ht⟩ := Seed.exists_addResources seed p.template
  obtain ⟨⟨u, e⟩, hparameters, hnames⟩ := Seed.names_addParameters seed t p.environment
  obtain ⟨v, houtputs, hv⟩ := Seed.exists_addOutputs seed u
  refine ⟨{ p with template := v, environment := e }, ?_, ?_, fun h => ?_⟩
  · simp only [inject, hresources, hparameters, houtputs, bind, Except.bind]
    rfl
  · simpa only [hv, ← ht] using hnames
  · obtain ⟨target, htarget, hstep⟩ := Seed.exists_addParameters seed (ht ▸ h)
    rw [hparameters] at htarget
    cases htarget
    exact hv ▸ hstep

theorem environment_connect (r : Role) (seed : Template) (p : Plan) :
    (r.connect seed p).environment = p.environment := by
  unfold Role.connect
  split <;> rfl

theorem environment_connectRoles (roles : List Role) (seed : Template) (p : Plan) :
    (roles.foldl (fun p r => r.connect seed p) p).environment = p.environment := by
  induction roles generalizing p with
  | nil => rfl
  | cons r rest ih => rw [List.foldl_cons, ih, environment_connect]

theorem exists_surround (seed : Option Template) (roles : List Role) {p : Plan}
    (hp : p.template.parameters.names = p.environment.parameters.names) :
    ∃ q, surround seed roles p = .ok q ∧
      ∀ name, name ∈ q.environment.parameters.names ↔ name ∈ p.environment.parameters.names ∨
        ∃ t, seed = some t ∧ name ∈ t.parameters.names ∧ name ∉ Seed.roleParameters t := by
  cases seed with
  | none => exact ⟨p, rfl, by simp⟩
  | some t =>
      obtain ⟨q, hinject, hnames, hstep⟩ := exists_inject t p
      refine ⟨roles.foldl (fun p r => r.connect t p) q, ?_, fun name => ?_⟩
      · rw [surround, hinject]
        rfl
      · rw [environment_connectRoles, ← hstep hp, hnames, hp]
        simp

/-! ## The whole plan -/

theorem fault_of_template {d : Description} {src : Sources} {a : Answer} (ha : a ∈ src.answers)
    {e : Error} (h : a.template = .error e) : d.Fault src e := by
  rcases Answer.template_eq_error_iff.mp h with ⟨fault, rfl, rfl⟩ | ⟨text, rfl, he⟩
  · exact .unread ha
  · exact .unparsed ha he

theorem Sources.parsedSeed_eq_error_iff {src : Sources} {e : Error} :
    src.parsedSeed = .error e ↔ ∃ a, src.seed = some a ∧ a.template = .error e := by
  rw [parsedSeed]
  cases src.seed with
  | none =>
      constructor
      · intro h
        cases h
      · rintro ⟨a, h, -⟩
        cases h
  | some a =>
      rw [Option.mapM_some]
      cases ha : a.template with
      | error e' => simp [ha, Functor.map, Except.map]
      | ok t => simp [ha, Functor.map, Except.map]

theorem Holds.mem_parameters_iff {d : Description} {seed : Option Template}
    {done : List (Role × Answer)} {p : Plan} (h : d.Holds seed done p) {name : String} :
    name ∈ p.environment.parameters.names ↔ ∃ source ∈ done, ∃ a, Supplies d seed source a ∧
      ∃ q, a.Offers q ∧ name = Namespace.apply a.ns q := by
  obtain ⟨-, roles, hroles, hmem⟩ := h
  rw [hroles.values, hroles.mem_parameters_iff]
  constructor
  · rintro ⟨a, ha, hq⟩
    obtain ⟨source, hs, hsupplies⟩ := (hmem a).mp ha
    exact ⟨source, hs, a, hsupplies, hq⟩
  · rintro ⟨source, hs, a, hsupplies, hq⟩
    exact ⟨a, (hmem a).mpr ⟨source, hs, hsupplies⟩, hq⟩

/-- Once the seed is read, what stands in the way is wrong with a role or with a value that is set
by its full name. -/
theorem fault_iff {d : Description} {src : Sources} (hsources : src.roles.map (·.1) = d.roles)
    {seed : Option Template} (hseed : src.parsedSeed = .ok seed) {e : Error} :
    d.Fault src e ↔ (∃ source ∈ src.roles, d.SourceFault seed source e) ∨
      ∃ name ∈ d.values.map (·.1), ¬ d.Offered src seed name ∧
        e = .notFound .environmentParameter name := by
  constructor
  · -- The seed is read, so that a refused answer is one for a role.
    have hrefused : ∀ a ∈ src.answers, a.template = .error e →
        ∃ source ∈ src.roles, d.SourceFault seed source e := by
      intro a ha he
      rcases List.mem_append.mp ha with ha | ha
      · have herror := Sources.parsedSeed_eq_error_iff.mpr ⟨a, Option.mem_toList.mp ha, he⟩
        rw [hseed] at herror
        cases herror
      · obtain ⟨source, hsource, rfl⟩ := List.mem_map.mp ha
        exact ⟨source, hsource, .inl he⟩
    intro hfault
    cases hfault with
    | @unread fault h =>
        exact .inl (hrefused _ h (Answer.template_eq_error_iff.mpr (.inl ⟨fault, rfl, rfl⟩)))
    | @unparsed text _ h he =>
        exact .inl (hrefused _ h (Answer.template_eq_error_iff.mpr (.inr ⟨text, rfl, he⟩)))
    | @ambiguous t r hseed' hr hseveral =>
        cases hseed.symm.trans hseed'
        obtain ⟨source, hsource, rfl⟩ := List.mem_map.mp (hsources ▸ hr)
        have hfixed := fixedFor_eq_error_iff.mpr ⟨t, rfl, hseveral, rfl⟩
        exact .inl ⟨source, hsource, .inr (.inl hfixed)⟩
    | @role _ source a _ hseed' hsource ha h =>
        cases hseed.symm.trans hseed'
        exact .inl ⟨source, hsource, .inr (.inr ⟨a, ha, h⟩)⟩
    | @value _ name hseed' hname hno =>
        cases hseed.symm.trans hseed'
        exact .inr ⟨name, hname, hno, rfl⟩
  · rintro (⟨source, hsource, htemplate | hfixed | ⟨a, ha, hfault⟩⟩ | ⟨name, hname, hno, rfl⟩)
    · exact fault_of_template (List.mem_append_right _ (List.mem_map_of_mem hsource)) htemplate
    · obtain ⟨t, rfl, hseveral, rfl⟩ := fixedFor_eq_error_iff.mp hfixed
      exact .ambiguous hseed (hsources ▸ List.mem_map_of_mem hsource) hseveral
    · exact .role hseed hsource ha hfault
    · exact .value hseed hname hno

/-- Behind the roles, only values that are set by their full names can fail. -/
theorem explains_values {d : Description} {src : Sources} {seed : Option Template} {p : Plan}
    (hp : d.Holds seed src.roles p) :
    Explains (fun e => ∃ name ∈ d.values.map (·.1), ¬ d.Offered src seed name ∧
        e = .notFound .environmentParameter name)
      (fun _ => True) (surround seed d.roles p >>= setValues d.values) := by
  obtain ⟨-, roles, hroles, -⟩ := id hp
  obtain ⟨q, hq, hnames⟩ := exists_surround seed d.roles hroles.values.symm
  have hoffered : ∀ name, name ∈ q.environment.parameters.names ↔ d.Offered src seed name := by
    intro name
    rw [hnames, hp.mem_parameters_iff]
    rfl
  rw [hq]
  refine (explains_setValues d.values q).imp (fun e => ?_) fun _ _ => trivial
  simp only [hoffered, List.mem_map, exists_exists_and_eq_and]

/-- The faults explain whether a plan is built. -/
theorem explains_planOf {d : Description} (hcheck : d.check = .ok ()) {src : Sources}
    (hsources : src.roles.map (·.1) = d.roles) :
    Explains (d.Fault src) (fun _ => True) (d.planOf src) := by
  rw [planOf]
  cases hseed : src.parsedSeed with
  | error e =>
      obtain ⟨a, ha, he⟩ := Sources.parsedSeed_eq_error_iff.mp hseed
      exact fault_of_template (by simp [Sources.answers, ha]) he
  | ok seed =>
      have hbuilt := (explains_addSources hcheck seed hsources).bind fun p hp => explains_values hp
      exact hbuilt.imp (fun e => (fault_iff hsources hseed).symm) fun _ _ => trivial

/-- A plan cannot be built exactly if one of the six faults is there, and the error is that of a
fault that is. No role is ever found to be in the plan already, nor a resource or an output; and a
seed never fails to be taken over. -/
theorem build_fails_iff {S : Type} [Storage (StateM S)] {d : Description}
    (hcheck : d.check = .ok ()) (s : S) :
    let result := (d.build.on s).1
    let src := (d.sources.run s).1
    ((∃ e, result = .error e) ↔ ∃ e, d.Fault src e) ∧
    (∀ e, result = .error e → d.Fault src e) ∧
    (∀ item name, result = .error (.duplicate item name) →
      item = .parameter ∧ ∃ r ∈ d.roles, name = Namespace.countName r.ns) ∧
    ∀ seed p, ∃ q, inject seed p = .ok q := by
  intro result src
  have hresult : result = d.planOf src := (d.gives_build s).on_fst
  have hsources := map_fst_roles_sources d s
  have hexplains := explains_planOf hcheck hsources
  rw [← hresult] at hexplains
  have hfault : ∀ e, result = .error e → d.Fault src e := fun e he => hexplains.of_error he
  refine ⟨hexplains.error_iff, hfault, fun item name hduplicate => ?_, fun seed p => ?_⟩
  · cases hfault _ hduplicate with
    | unparsed _ he => exact absurd (Template.blames_parse _ _ he) Bool.false_ne_true
    | role hseed hsource ha h =>
        cases h with
        | count hscaling hcount hfree =>
            cases ha
            exact ⟨rfl, _, hsources ▸ List.mem_map_of_mem hsource, rfl⟩
  · obtain ⟨q, hq, -⟩ := exists_inject seed p
    exact ⟨q, hq⟩

/-- A description that sets a value for a parameter its role does not have. -/
def unfitDescription : Description where
  name := "plan"
  roles := [{
    name := "a", version := 1, template := "a.yaml", parameters := some ⟨[("p", .null)]⟩ }]
  output := { path := "out" }

def blankShelf : Shelf := { texts := ⟨[("a.yaml", "")]⟩ }

theorem build_fails_iff_unfitDescription :
    unfitDescription.check = .ok () ∧
      ∃ e, ((unfitDescription.build (m := StateM Shelf)).on blankShelf).1 = .error e := by
  have hcheck : unfitDescription.check = .ok () := rfl
  obtain ⟨hiff, -⟩ := build_fails_iff hcheck blankShelf
  let a : Plan.Addition := ⟨"a-1", {}, "provider-a-1.yaml", .empty, true⟩
  have hoffer : ¬ a.Offers "p" := by
    rintro (⟨hm, -⟩ | ⟨-, hcount⟩)
    · exact List.not_mem_nil hm
    · exact absurd hcount (by decide)
  have hfault : unfitDescription.Fault (unfitDescription.sources.run blankShelf).1
      (.notFound .environmentParameter (Namespace.apply "a-1" "p")) :=
    .role rfl (List.mem_singleton_self _) (.intro rfl rfl)
      (.value (List.mem_singleton_self "p") hoffer)
  exact ⟨hcheck, hiff.mpr ⟨_, hfault⟩⟩

end RolePlan.Description
