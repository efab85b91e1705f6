import RolePlan.Proofs.Edit
import RolePlan.Proofs.Keeping

/-!
# What is built

A plan is built by edits and by copying from a seed, and all that goes into it comes from texts or
from well-formed settings. So every plan that is built can be stored and read again. A run stores
what was built, and nothing else.
-/

namespace RolePlan

namespace Plan

def Edit.perform (e : Edit) (p : Plan) : Except Error Plan :=
  match e.change.on p with
  | (.ok _, p) => .ok p
  | (.error e, _) => .error e

def performAll (es : List Edit) (p : Plan) : Except Error Plan :=
  es.foldlM (fun p e => e.perform p) p

theorem Edit.perform_eq_ok_iff {e : Edit} {p q : Plan} :
    e.perform p = .ok q ↔ e.succeeds p = true ∧ e.run p = q := by
  rw [perform, succeeds, run]
  rcases e.change.on p with ⟨_ | _, r⟩
  · simp [Except.isOk, Except.toBool]
  · simp [Except.isOk, Except.toBool]

theorem perform_addRole (p : Plan) (ns : String) (role : Template) (filename : String)
    (overrides : Table Value) :
    (Edit.addRole ns role filename overrides).perform p = p.addRole ns role filename overrides :=
  rfl

theorem perform_setValue (p : Plan) (name : String) (value : Value) :
    (Edit.setValue name value).perform p = p.setValue name value := by
  rw [Edit.perform, Edit.change]
  cases h : p.setValue name value with
  | ok q => rw [Change.on_edit_of_ok h]
  | error e => rw [Change.on_edit_of_error h]

theorem portable_performAll {es : List Edit} (hes : ∀ e ∈ es, (Step.edit e).Sound) {p q : Plan}
    (hp : p.Portable) (h : performAll es p = .ok q) : q.Portable := by
  refine Proofs.foldlM_keeps (fun r e he hr t ht => ?_) hp h
  obtain ⟨-, rfl⟩ := Edit.perform_eq_ok_iff.mp ht
  exact Edit.keeps_portable (hes e he) r hr

end Plan

/-- The properties of a member are well-formed, since a definition that was read is a value. -/
theorem Resource.wellFormed_memberProperties {r : Resource} (hr : r.WellFormed)
    (hplain : r.IsPlain) : ∀ entry ∈ r.memberProperties.entries, entry.2.WellFormed := by
  rcases memberProperties_of_isPlain hplain with hnone | ⟨fields, hdefinition, hproperties⟩
  · rw [hnone]
    exact fun entry he => absurd he List.not_mem_nil
  · have hfields : Document.Sound fields.entries :=
      Document.sound_of_object (hr.properties _ hdefinition)
    exact Document.sound_of_object (hfields _ hproperties)

namespace Description

open Job (Gives)
open Plan (performAll)

/-! ## Building by edits -/

def settings (values : List (String × Value)) : List Plan.Edit :=
  values.map fun entry => .setValue entry.1 entry.2

theorem setValues_eq (values : List (String × Value)) (p : Plan) :
    setValues values p = performAll (settings values) p := by
  rw [setValues, performAll, settings, List.foldlM_map]
  simp only [Plan.perform_setValue]

theorem Role.addTo_eq (r : Role) (template : Template) (fixed : Option (Table Value)) (p : Plan) :
    r.addTo template fixed p =
      performAll (.addRole r.ns template r.registryFilename (fixed.getD .empty) ::
        settings r.values) p := by
  rw [performAll, List.foldlM_cons, Plan.perform_addRole, Role.addTo]
  exact congrArg _ (funext fun q => setValues_eq r.values q)

/-! ## Portable plans -/

/-- The values that the description sets are well-formed. -/
structure WellFormed (d : Description) : Prop where
  values : ∀ entry ∈ d.values, entry.2.WellFormed
  ofRoles : ∀ r ∈ d.roles, ∀ entry ∈ r.values, entry.2.WellFormed

theorem wellFormed_fixedFor {seed : Option Template} (hseed : ∀ t ∈ seed, t.Loaded) {r : Role}
    {fixed : Option (Table Value)} (h : fixedFor seed r = .ok fixed) :
    ∀ entry ∈ (fixed.getD .empty).entries, entry.2.WellFormed := by
  cases seed with
  | none =>
      cases h
      exact fun entry he => absurd he List.not_mem_nil
  | some t =>
      have ht := hseed t rfl
      simp only [fixedFor, Seed.fixedProperties?] at h
      split at h
      · cases h
        exact fun entry he => absurd he List.not_mem_nil
      · next id resource hone =>
          cases h
          have hin : (id, resource) ∈ t.resources.entries := by
            have hcandidate : (id, resource) ∈ Seed.candidates t r.name := by simp [hone]
            exact (List.mem_filter.mp hcandidate).1
          have hmember := Resource.wellFormed_memberProperties
            (ht.wellFormed.ofResources _ hin) (ht.plain _ hin)
          exact fun entry he => hmember entry (List.mem_filter.mp he).1
      · cases h

theorem sound_settings {values : List (String × Value)}
    (h : ∀ entry ∈ values, entry.2.WellFormed) :
    ∀ e ∈ settings values, (Plan.Step.edit e).Sound := by
  intro e he
  obtain ⟨entry, hentry, rfl⟩ := List.mem_map.mp he
  exact h entry hentry

theorem portable_addSource {seed : Option Template} (hseed : ∀ t ∈ seed, t.Loaded) {p q : Plan}
    (hp : p.Portable) {source : Role × Answer}
    (hvalues : ∀ entry ∈ source.1.values, entry.2.WellFormed)
    (h : addSource seed p source = .ok q) : q.Portable := by
  obtain ⟨template, htemplate, h⟩ := Proofs.bind_eq_ok h
  obtain ⟨fixed, hfixed, h⟩ := Proofs.bind_eq_ok h
  obtain ⟨text, -, hparse⟩ := Proofs.bind_eq_ok htemplate
  rw [Role.addTo_eq] at h
  refine Plan.portable_performAll ?_ hp h
  rw [List.forall_mem_cons]
  exact ⟨⟨⟨text, hparse⟩, wellFormed_fixedFor hseed hfixed⟩, sound_settings hvalues⟩

theorem portable_inject {seed : Template} (hseed : seed.Loaded) {p q : Plan} (hp : p.Portable)
    (h : inject seed p = .ok q) : q.Portable := by
  obtain ⟨t, ht, h⟩ := Proofs.bind_eq_ok h
  obtain ⟨⟨u, e⟩, hu, h⟩ := Proofs.bind_eq_ok h
  obtain ⟨v, hv, h⟩ := Proofs.bind_eq_ok h
  cases h
  have hresources := Plan.portable_addResources hseed hp.template ht
  obtain ⟨hparameters, henvironment⟩ :=
    Plan.portable_addParameters hseed hresources hp.environment hu
  exact ⟨Plan.portable_addOutputs hseed hparameters hv, henvironment⟩

theorem portable_connect {p : Plan} (hp : p.Portable) (seed : Template) (r : Role) :
    (r.connect seed p).Portable := by
  unfold Role.connect
  split
  · exact hp
  · exact ⟨hp.template.updateReferences _ _, hp.environment⟩

theorem portable_surround {seed : Option Template} (hseed : ∀ t ∈ seed, t.Loaded)
    {roles : List Role} {p q : Plan} (hp : p.Portable) (h : surround seed roles p = .ok q) :
    q.Portable := by
  cases seed with
  | none =>
      cases h
      exact hp
  | some t =>
      obtain ⟨r, hr, h⟩ := Proofs.bind_eq_ok h
      cases h
      exact List.foldlRecOn roles _ (portable_inject (hseed t rfl) hp hr)
        fun _ hq r _ => portable_connect hq t r

/-- Whatever the storage answers, the plan that is built can be stored and read again. -/
theorem portable_planOf {d : Description} (hd : d.WellFormed) {src : Sources}
    (hsources : ∀ source ∈ src.roles, source.1 ∈ d.roles) {p : Plan}
    (h : d.planOf src = .ok p) : p.Portable := by
  obtain ⟨seed, hseed, -⟩ := Proofs.bind_eq_ok h
  obtain ⟨q, r, hroles, hsurround, hset⟩ := exists_stages hseed h
  have hloaded := Sources.loaded_of_parsedSeed hseed
  have hempty : d.emptyPlan.Portable := Plan.portable_new _ d.description d.scalingEnabled
  have hq : q.Portable := Proofs.foldlM_keeps
    (fun t source hsource ht u hu =>
      portable_addSource hloaded ht (hd.ofRoles _ (hsources source hsource)) hu) hempty hroles
  rw [setValues_eq] at hset
  exact Plan.portable_performAll (sound_settings hd.values) (portable_surround hloaded hq hsurround)
    hset

/-! ## Runs -/

section Runs

variable {S : Type} [Storage (StateM S)] {d : Description} {s : S}

theorem portable_build (hd : d.WellFormed) {p : Plan} (h : (d.build.on s).1 = .ok p) :
    p.Portable := by
  rw [(d.gives_build s).on_fst] at h
  refine portable_planOf hd (fun source hsource => ?_) h
  rw [← map_fst_roles_sources d s]
  exact List.mem_map_of_mem hsource

/-- A run that succeeds has built a plan. -/
theorem exists_build_of_run {summary : Summary} {s₁ : S} (hrun : d.run.on s = (.ok summary, s₁)) :
    ∃ p, (d.build.on s).1 = .ok p := by
  have hbuild := d.gives_build s
  cases hresult : d.planOf (d.sources.run s).1 with
  | ok p => exact ⟨p, hbuild.on_fst.trans hresult⟩
  | error e =>
      rw [hresult] at hbuild
      have hfail : Gives d.run s (.error e >>= fun p => .ok (d.summaryOf p)) s :=
        hbuild.bind fun p hp => by cases hp
      have hfirst := hfail.on_fst
      rw [hrun] at hfirst
      cases hfirst

/-- A run stores the plan that it builds. -/
theorem gives_run_of_build {good : S → Prop} (hkeeping : Storage.Keeping good) (hs : good s)
    {p : Plan} (h : (d.build.on s).1 = .ok p) :
    ∃ t, Gives d.run s (.ok (d.summaryOf p)) t ∧ good t ∧
      Storage.text t = d.storedTexts p (Storage.text s) := by
  obtain ⟨-, hgood, htext⟩ := sources_eq hkeeping d hs
  have hbuild := d.gives_build s
  rw [hbuild.on_fst] at h
  rw [h] at hbuild
  obtain ⟨t, hstore, ht, hstored⟩ := gives_store hkeeping d p hgood
  exact ⟨t, hbuild.bind_of_ok hstore, ht, htext ▸ hstored⟩

end Runs

end Description

end RolePlan
