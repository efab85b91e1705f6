import RolePlan.Proofs.Building
import RolePlan.Proofs.Checked

/-!
# Taking a role out of a stored plan

Removing a namespace from a plan that is stored comes to having composed the plan without the role
of that namespace: the summary is the same, and so are all texts.
-/

namespace RolePlan

namespace Plan

/-- Edits that all succeed do so without a namespace, if those that concern it are left out. -/
theorem performAll_removeRole {ns : String} (hns : Namespace.Simple ns) {es : List Edit}
    (hes : ∀ e ∈ es, e.Proper) {p q : Plan} (h : performAll es p = .ok q) :
    performAll (es.filter (!·.concerns ns)) (p.removeRole ns) = .ok (q.removeRole ns) := by
  induction es generalizing p with
  | nil =>
      cases h
      rfl
  | cons e rest ih =>
      rw [performAll, List.foldlM_cons] at h
      obtain ⟨r, hfirst, hrest⟩ := Proofs.bind_eq_ok h
      obtain ⟨hsucceeds, rfl⟩ := Edit.perform_eq_ok_iff.mp hfirst
      have hr := ih (fun other ho => hes other (List.mem_cons_of_mem e ho)) hrest
      have hproper := hes e List.mem_cons_self
      rw [removeRole_run hns hproper] at hr
      cases hc : e.concerns ns with
      | true => simpa [hc] using hr
      | false =>
          have hperform : e.perform (p.removeRole ns) = .ok (e.run (p.removeRole ns)) :=
            Edit.perform_eq_ok_iff.mpr
              ⟨(Edit.succeeds_removeRole hns hproper hc p).trans hsucceeds, rfl⟩
          rw [hc, if_neg Bool.false_ne_true] at hr
          rw [List.filter_cons_of_pos (by simp [hc]), performAll, List.foldlM_cons, hperform]
          exact hr

end Plan

namespace Description

open Job (Gives)
open Plan (performAll)

/-! ## Building by edits -/

/-- What a role comes to once its template is known, where there is no seed. -/
def Role.edits (r : Role) (template : Template) : List Plan.Edit :=
  .addRole r.ns template r.registryFilename .empty :: settings r.values

theorem addSource_eq (p : Plan) (source : Role × Answer) :
    addSource none p source =
      source.2.template >>= fun template => performAll (source.1.edits template) p := by
  have haddTo : ∀ template, source.1.addTo template none p =
      performAll (source.1.edits template) p := fun template => source.1.addTo_eq template none p
  exact congrArg (source.2.template >>= ·) (funext haddTo)

theorem proper_edits {r : Role} (hns : Namespace.Simple r.ns) {template : Template}
    (htemplate : template.Distinct) : ∀ e ∈ r.edits template, e.Proper := by
  rw [Role.edits, List.forall_mem_cons]
  refine ⟨⟨hns, htemplate⟩, fun e he => ?_⟩
  obtain ⟨entry, -, rfl⟩ := List.mem_map.mp he
  trivial

/-- The edits of a role concern its own namespace. -/
theorem concerns_edits {r : Role} {template : Template} :
    ∀ e ∈ r.edits template, e.concerns r.ns = true := by
  rw [Role.edits, List.forall_mem_cons]
  refine ⟨beq_self_eq_true r.ns, fun e he => ?_⟩
  obtain ⟨_, hentry, rfl⟩ := List.mem_map.mp he
  obtain ⟨entry, -, rfl⟩ := List.mem_map.mp hentry
  exact Namespace.owns_apply r.ns entry.1

/-- The edits of a role concern no other namespace. -/
theorem concerns_edits_of_ne {r : Role} {ns : String} (hr : Namespace.Simple r.ns)
    (hns : Namespace.Simple ns) (hne : r.ns ≠ ns) {template : Template} :
    ∀ e ∈ r.edits template, e.concerns ns = false := by
  rw [Role.edits, List.forall_mem_cons]
  refine ⟨beq_eq_false_iff_ne.mpr hne, fun e he => ?_⟩
  obtain ⟨_, hentry, rfl⟩ := List.mem_map.mp he
  obtain ⟨entry, -, rfl⟩ := List.mem_map.mp hentry
  exact hr.owns_eq_false hns hne (Namespace.owns_apply r.ns entry.1)

theorem addSource_removeRole {ns : String} (hns : Namespace.Simple ns) {source : Role × Answer}
    (hsource : Namespace.Simple source.1.ns) {p q : Plan} (h : addSource none p source = .ok q) :
    (source.1.ns = ns → q.removeRole ns = p.removeRole ns) ∧
      (source.1.ns ≠ ns → addSource none (p.removeRole ns) source = .ok (q.removeRole ns)) := by
  rw [addSource_eq] at h
  obtain ⟨template, htemplate, h⟩ := Proofs.bind_eq_ok h
  have hproper := proper_edits hsource (Answer.loaded_of_template htemplate).wellFormed.toDistinct
  have hremoved := Plan.performAll_removeRole hns hproper h
  refine ⟨fun heq => ?_, fun hne => ?_⟩
  · subst heq
    rw [List.filter_eq_nil_iff.mpr fun e he => by simp [concerns_edits e he]] at hremoved
    exact (Except.ok.inj hremoved).symm
  · have hkept : ∀ e ∈ source.1.edits template, e.concerns ns = false :=
      concerns_edits_of_ne hsource hns hne
    rw [List.filter_eq_self.mpr fun e he => by simp [hkept e he]] at hremoved
    rw [addSource_eq, htemplate]
    exact hremoved

theorem addSources_removeRole {ns : String} (hns : Namespace.Simple ns)
    {sources : List (Role × Answer)} (hsources : ∀ source ∈ sources, Namespace.Simple source.1.ns)
    {p q : Plan} (h : sources.foldlM (addSource none) p = .ok q) :
    (sources.filter (·.1.ns != ns)).foldlM (addSource none) (p.removeRole ns) =
      .ok (q.removeRole ns) := by
  induction sources generalizing p with
  | nil =>
      cases h
      rfl
  | cons source rest ih =>
      rw [List.foldlM_cons] at h
      obtain ⟨r, hfirst, hrest⟩ := Proofs.bind_eq_ok h
      obtain ⟨hsource, hothers⟩ := List.forall_mem_cons.mp hsources
      obtain ⟨heq, hne⟩ := addSource_removeRole hns hsource hfirst
      have hr := ih hothers hrest
      by_cases hsame : source.1.ns = ns
      · rw [heq hsame] at hr
        simpa [hsame] using hr
      · rw [List.filter_cons_of_pos (by simpa using hsame), List.foldlM_cons, hne hsame]
        exact hr

/-! ## Leaving a role out -/

/-- The description without the role at a place, and without the values that are set in the
namespace of that role. -/
def without (d : Description) (i : Fin d.roles.length) : Description :=
  { d with
    roles := d.roles.eraseIdx i
    parameters := d.parameters.map (·.keep (!Namespace.owns d.roles[i].ns ·)) }

/-- The item at a place is the only one with its key, so that a filter takes away nothing else. -/
theorem eraseIdx_eq_filter {α β : Type} [BEq β] [LawfulBEq β] {f : α → β} {items : List α}
    (h : (items.map f).Nodup) (i : Fin items.length) :
    items.eraseIdx i = items.filter (f · != f items[i]) := by
  have hsplit : items = items.take i ++ items[i] :: items.drop (i + 1) := by simp
  have hnodup := h
  rw [hsplit, List.map_append, List.map_cons, List.nodup_append, List.nodup_cons] at hnodup
  obtain ⟨-, ⟨hafter, -⟩, hbefore⟩ := hnodup
  have hfirst : (items.take i).filter (f · != f items[i]) = items.take i := by
    refine List.filter_eq_self.mpr fun item hm => bne_iff_ne.mpr ?_
    exact hbefore _ (List.mem_map_of_mem hm) _ List.mem_cons_self
  have hrest : (items.drop (i + 1)).filter (f · != f items[i]) = items.drop (i + 1) := by
    refine List.filter_eq_self.mpr fun item hm => bne_iff_ne.mpr fun heq => hafter ?_
    exact heq ▸ List.mem_map_of_mem hm
  have hfilter : items.filter (f · != f items[i]) =
      (items.take i).filter (f · != f items[i]) ++
        (items.drop (i + 1)).filter (f · != f items[i]) := by
    refine (congrArg (List.filter (f · != f items[i])) hsplit).trans ?_
    rw [List.filter_append, List.filter_cons_of_neg (by simp)]
  rw [hfilter, hfirst, hrest, List.eraseIdx_eq_take_drop_succ]

theorem values_without (d : Description) (i : Fin d.roles.length) :
    (d.without i).values = d.values.filter (!Namespace.owns d.roles[i].ns ·.1) := by
  rw [values, values, without]
  cases d.parameters <;> rfl

theorem planOf_eq (d : Description) (sources : List (Role × Answer)) :
    d.planOf { seed := none, roles := sources } =
      sources.foldlM (addSource none) d.emptyPlan >>= setValues d.values := rfl

theorem setValues_removeRole {ns : String} (hns : Namespace.Simple ns)
    {values : List (String × Value)} {p q : Plan} (h : setValues values p = .ok q) :
    setValues (values.filter (!Namespace.owns ns ·.1)) (p.removeRole ns) =
      .ok (q.removeRole ns) := by
  rw [setValues_eq] at h ⊢
  have hproper : ∀ e ∈ settings values, e.Proper := by
    intro e he
    obtain ⟨entry, -, rfl⟩ := List.mem_map.mp he
    trivial
  have hremoved := Plan.performAll_removeRole hns hproper h
  rw [settings, List.filter_map] at hremoved
  exact hremoved

/-- What is built without a role is what is built with it, less the role's namespace. -/
theorem planOf_without {d : Description} (hcheck : d.check = .ok ()) (i : Fin d.roles.length)
    {answer : String → Answer} {p : Plan}
    (h : d.planOf { seed := none, roles := d.roles.map fun r => (r, answer r.template) } = .ok p) :
    (d.without i).planOf
        { seed := none, roles := (d.without i).roles.map fun r => (r, answer r.template) } =
      .ok (p.removeRole d.roles[i].ns) := by
  obtain ⟨hsimple, hnodup⟩ := spec_of_check hcheck
  have hns := hsimple d.roles[i] (List.getElem_mem _)
  rw [planOf_eq] at h ⊢
  obtain ⟨q, hroles, hvalues⟩ := Proofs.bind_eq_ok h
  have hremoved := addSources_removeRole hns (by simpa using hsimple) hroles
  rw [List.filter_map, show d.emptyPlan.removeRole d.roles[i].ns = d.emptyPlan from rfl]
    at hremoved
  have hset := setValues_removeRole hns hvalues
  rw [← values_without] at hset
  have hkept : (d.without i).roles = d.roles.filter (·.ns != d.roles[i].ns) :=
    eraseIdx_eq_filter hnodup i
  rw [hkept]
  exact (congrArg (· >>= setValues (d.without i).values) hremoved).trans hset

/-! ## Storing and removing -/

/-- Of a plan that was loaded, the same is told and stored as of the plan that was composed. -/
theorem store_expand (d : Description) (p : Plan) (scaling : Bool) (texts : String → Answer) :
    let loaded : Plan := { p.expand with scaling }
    d.summaryOf loaded = d.summaryOf p ∧ d.storedTexts loaded texts = d.storedTexts p texts := by
  intro loaded
  have hcompose : loaded.compose = p.compose := Plan.compose_expand p
  refine ⟨?_, by rw [storedTexts, storedTexts, hcompose]⟩
  simp only [summaryOf, loaded, Plan.expand, Template.expand, Table.size, Table.map,
    List.length_map]
  rfl

/-- Of two plans that are stored one after another only the later one is left. -/
theorem storedTexts_storedTexts {d : Description}
    (hpaths : d.output.templatePath ≠ d.output.environmentPath) (p q : Plan)
    (texts : String → Answer) :
    d.storedTexts q (d.storedTexts p texts) = d.storedTexts q texts := by
  simp only [storedTexts]
  rw [Function.update_comm hpaths.symm, Function.update_idem, Function.update_idem]

section Storing

variable {S : Type} [Storage (StateM S)] {good : S → Prop} (hkeeping : Storage.Keeping good)
  {d : Description} {s : S}
include hkeeping

theorem build_eq_planOf (hseed : d.seed = none) (hs : good s) :
    (d.build.on s).1 = d.planOf
      { seed := none, roles := d.roles.map fun r => (r, Storage.text s r.template) } :=
  build_of_steady hkeeping.read hs hseed

/-- A run stores the plan that is built from the texts of the storage. -/
theorem gives_run (hseed : d.seed = none) (hs : good s) {p : Plan}
    (h : d.planOf
      { seed := none, roles := d.roles.map fun r => (r, Storage.text s r.template) } = .ok p) :
    ∃ t, Gives d.run s (.ok (d.summaryOf p)) t ∧ good t ∧
      Storage.text t = d.storedTexts p (Storage.text s) ∧ (d.build.on s).1 = .ok p := by
  have hbuild := (build_eq_planOf hkeeping hseed hs).trans h
  obtain ⟨t, hrun, ht, hstored⟩ := gives_run_of_build hkeeping hs hbuild
  exact ⟨t, hrun, ht, hstored, hbuild⟩

/-- A run that succeeds has built a plan. -/
theorem exists_planOf_of_run (hseed : d.seed = none) (hs : good s) {summary : Summary} {s₁ : S}
    (hrun : d.run.on s = (.ok summary, s₁)) :
    ∃ p, d.planOf
      { seed := none, roles := d.roles.map fun r => (r, Storage.text s r.template) } = .ok p := by
  rw [← build_eq_planOf hkeeping hseed hs]
  exact exists_build_of_run hrun

/-- A plan that was stored is loaded, and stored again without a namespace. -/
theorem gives_remove {p : Plan} (hp : p.Portable) (hback : p.GivenBack)
    (hpaths : d.output.templatePath ≠ d.output.environmentPath) (hs : good s)
    {texts : String → Answer} (hstored : Storage.text s = d.storedTexts p texts) (ns : String) :
    ∃ t, Gives (d.remove ns) s (.ok (d.summaryOf (p.removeRole ns))) t ∧
      Storage.text t = d.storedTexts (p.removeRole ns) texts := by
  obtain ⟨u, hload, hu, hsame⟩ := gives_load hkeeping d hp hback hpaths hs hstored
  let loaded : Plan := { p.expand with scaling := d.scalingEnabled }
  have hloaded : loaded.removeRole ns =
      { (p.removeRole ns).expand with scaling := d.scalingEnabled } :=
    congrArg (·.withScaling d.scalingEnabled) (Plan.removeRole_expand p ns)
  obtain ⟨hsummary, htexts⟩ := store_expand d (p.removeRole ns) d.scalingEnabled (Storage.text u)
  rw [← hloaded] at hsummary htexts
  obtain ⟨t, hstore, -, htext⟩ := gives_store hkeeping d (loaded.removeRole ns) hu
  rw [hsummary] at hstore
  refine ⟨t, hload.bind_of_ok ?_, ?_⟩
  · split
    · exact (Job.gives_warn _ u).bind_of_ok hstore
    · exact hstore
  · rw [htext, htexts, hsame, hstored, storedTexts_storedTexts hpaths]

/-- Where the plan that is built can be stored and is given back, removing a role from it comes to
composing it without the role. -/
theorem exists_remove_of_run (hcheck : d.check = .ok ()) (hseed : d.seed = none)
    (hpaths : d.output.templatePath ≠ d.output.environmentPath) (i : Fin d.roles.length)
    {s₁ : S} (hs : good s) {summary : Summary} (hrun : d.run.on s = (.ok summary, s₁))
    (hbuilt : ∀ p, (d.build.on s).1 = .ok p → p.Portable ∧ p.GivenBack) :
    ∃ left s₂ s₃, (d.remove d.roles[i].ns).on s₁ = (.ok left, s₂) ∧
      (d.without i).run.on s = (.ok left, s₃) ∧ Storage.text s₂ = Storage.text s₃ := by
  obtain ⟨p, hplan⟩ := exists_planOf_of_run hkeeping hseed hs hrun
  obtain ⟨t, hstore, ht, hstored, hbuild⟩ := gives_run hkeeping hseed hs hplan
  obtain ⟨-, rfl⟩ := Prod.mk.inj (hrun.symm.trans hstore.on_of_ok)
  obtain ⟨hportable, hback⟩ := hbuilt p hbuild
  obtain ⟨s₂, hremove, htexts⟩ :=
    gives_remove hkeeping hportable hback hpaths ht hstored d.roles[i].ns
  obtain ⟨s₃, hrun', -, htexts', -⟩ := gives_run (d := d.without i) hkeeping hseed hs
    (planOf_without hcheck i hplan)
  exact ⟨_, s₂, s₃, hremove.on_of_ok, hrun'.on_of_ok, htexts.trans htexts'.symm⟩

end Storing

/-- Removing a role from the plan that was stored comes to composing the plan without it, on a
storage that keeps what it is given. -/
theorem remove_run_eq_run_without {S : Type} [Storage (StateM S)] {good : S → Prop}
    (hkeeping : Storage.Keeping good) {d : Description} (hcheck : d.check = .ok ())
    (hvalues : d.WellFormed) (hseed : d.seed = none)
    (hpaths : d.output.templatePath ≠ d.output.environmentPath) (i : Fin d.roles.length)
    {s s₁ : S} (hs : good s) {summary : Summary} (hrun : d.run.on s = (.ok summary, s₁))
    (hback : ∀ p, (d.build.on s).1 = .ok p → p.GivenBack) :
    ∃ left s₂ s₃, (d.remove d.roles[i].ns).on s₁ = (.ok left, s₂) ∧
      (d.without i).run.on s = (.ok left, s₃) ∧ Storage.text s₂ = Storage.text s₃ :=
  exists_remove_of_run hkeeping hcheck hseed hpaths i hs hrun
    fun p hp => ⟨portable_build hvalues hp, hback p hp⟩

/-- Two roles that stand by themselves; a value is set for the parameter of the first. -/
def pairDescription : Description where
  name := "pair"
  scaling := some false
  parameters := some ⟨[("a-1::p", .string "y")]⟩
  roles := [{ name := "a", version := 1, template := "a.yaml" },
    { name := "b", version := 1, template := "b.yaml" }]
  output := { path := "out" }

def pairShelf : Shelf := { texts := ⟨[("a.yaml", Plan.sampleText), ("b.yaml", "")]⟩ }

def pairPlan : Plan :=
  ((pairDescription.emptyPlan.withRole "a-1" Plan.sampleRole "provider-a-1.yaml" .empty).withRole
    "b-1" {} "provider-b-1.yaml" .empty).withValue "a-1::p" (.string "y")

theorem planOf_pairDescription :
    pairDescription.planOf {
      seed := none
      roles := pairDescription.roles.map fun r => (r, Storage.text pairShelf r.template) } =
        .ok pairPlan := by
  have hsources : (pairDescription.roles.map fun r => (r, Storage.text pairShelf r.template)) =
      [({ name := "a", version := 1, template := "a.yaml" }, .ok Plan.sampleText),
        ({ name := "b", version := 1, template := "b.yaml" }, .ok "")] := rfl
  have htemplate : Answer.template (.ok Plan.sampleText) = .ok Plan.sampleRole :=
    Plan.parse_sampleText
  rw [planOf_eq, hsources, List.foldlM_cons, addSource_eq, htemplate]
  rfl

def pairTemplateLines : List String :=
  ["heat_template_version: 2014-10-16",
    "parameters:",
    "  a-1::p:",
    "    type: string",
    "resources:",
    "  a-1-resource:",
    "    type: Tuskar::a-1",
    "    properties:",
    "      p:",
    "        get_param: a-1::p",
    "  b-1-resource:",
    "    type: Tuskar::b-1"]

def pairEnvironmentLines : List String :=
  ["parameters:",
    "  a-1::p: y",
    "resource_registry:",
    "  Tuskar::a-1: provider-a-1.yaml",
    "  Tuskar::b-1: provider-b-1.yaml"]

theorem givenBack_pairPlan : pairPlan.GivenBack := by
  have htemplate : Yaml.write pairPlan.template.toDocument =
      String.ofList (Yaml.ofLines pairTemplateLines) := by decide +kernel
  have henvironment : Yaml.write pairPlan.environment.toDocument =
      String.ofList (Yaml.ofLines pairEnvironmentLines) := by decide +kernel
  constructor
  · refine Yaml.givesBack_of_write htemplate ?_
    rw [Yaml.readsAs, Yaml.Tree.read, Yaml.Token.scan, String.toList_ofList]
    decide +kernel
  · refine Yaml.givesBack_of_write henvironment ?_
    rw [Yaml.readsAs, Yaml.Tree.read, Yaml.Token.scan, String.toList_ofList]
    decide +kernel

theorem remove_run_eq_run_without_pairDescription :
    pairDescription.check = .ok () ∧ ∃ summary left s₁ s₂ s₃,
      (pairDescription.run (m := StateM Shelf)).on pairShelf = (.ok summary, s₁) ∧
      (pairDescription.remove (m := StateM Shelf) "a-1").on s₁ = (.ok left, s₂) ∧
      ((pairDescription.without ⟨0, by decide⟩).run (m := StateM Shelf)).on pairShelf =
        (.ok left, s₃) ∧ Storage.text s₂ = Storage.text s₃ := by
  have hcheck : pairDescription.check = .ok () := rfl
  have hvalues : pairDescription.WellFormed :=
    ⟨by simp [pairDescription, values, Value.WellFormed],
      by simp [pairDescription, Role.values]⟩
  have hpaths : pairDescription.output.templatePath ≠ pairDescription.output.environmentPath := by
    decide
  obtain ⟨s₁, hrun, -, -, hbuild⟩ := gives_run Shelf.keeping rfl rfl planOf_pairDescription
  have hback : ∀ p, (pairDescription.build.on pairShelf).1 = .ok p → p.GivenBack := by
    intro p hp
    rw [hbuild] at hp
    cases hp
    exact givenBack_pairPlan
  obtain ⟨left, s₂, s₃, hremove, hwithout, htexts⟩ := remove_run_eq_run_without Shelf.keeping
    hcheck hvalues rfl hpaths ⟨0, by decide⟩ rfl hrun.on_of_ok hback
  exact ⟨hcheck, _, left, s₁, s₂, s₃, hrun.on_of_ok, hremove, hwithout, htexts⟩

end Description

end RolePlan
