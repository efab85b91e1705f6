import RolePlan.Proofs.Contents
import RolePlan.Proofs.Seed

/-!
# Where the parts of a plan come from

A removal goes by names alone. What bears a name of the namespace has been put into the plan by the
last addition of a role to it, or it was copied from a seed that gives such a name itself. Only
where no seed does that is the removal of a namespace without a role an idle one.
-/

namespace RolePlan.Plan

/-! ## Steps -/

/-- A proper edit, or copying from a seed. -/
def Step.Proper : Step → Prop
  | edit e => e.Proper
  | addResources _ => True
  | addParameters _ => True
  | addOutputs _ => True
  | updateReferences _ _ => False

/-- The step copies from a seed that gives a name of the namespace. -/
def Step.Bears (ns : String) : Step → Prop
  | addResources seed => ∃ id ∈ seed.resources.names, isRoleId ns id = true
  | addParameters seed => ∃ name ∈ seed.parameters.names, Namespace.owns ns name = true
  | addOutputs seed => ∃ name ∈ seed.outputs.names, Namespace.owns ns name = true
  | edit _ => False
  | updateReferences _ _ => False

theorem runSteps_append_singleton (steps : List Step) (s : Step) (p : Plan) :
    runSteps (steps ++ [s]) p = s.run (runSteps steps p) := by
  rw [runSteps, List.foldl_append]
  rfl

theorem Step.run_edit (e : Edit) (p : Plan) : (Step.edit e).run p = e.run p := by
  rw [Step.run, Step.change, Edit.run, Change.on_bind]
  rcases e.change.on p with ⟨_ | _, q⟩
  · rfl
  · rfl

/-- Copying never fails, and what it leaves is the edited plan. -/
theorem Step.run_of_edit {f : Plan → Except Error Plan} {p q : Plan} (h : f p = .ok q) :
    ((do Change.edit f; return 0 : Change Nat).on p).2 = q := by
  rw [Change.on_bind_of_ok (Change.on_edit_of_ok h)]
  rfl

theorem Step.run_addResources (seed : Template) (p : Plan) :
    ∃ t, Seed.addResources seed p.template = .ok t ∧
      (Step.addResources seed).run p = { p with template := t } := by
  obtain ⟨t, ht, -⟩ := Seed.exists_addResources seed p.template
  refine ⟨t, ht, Step.run_of_edit ?_⟩
  rw [ht]
  rfl

theorem Step.run_addOutputs (seed : Template) (p : Plan) :
    ∃ t, Seed.addOutputs seed p.template = .ok t ∧
      (Step.addOutputs seed).run p = { p with template := t } := by
  obtain ⟨t, ht, -⟩ := Seed.exists_addOutputs seed p.template
  refine ⟨t, ht, Step.run_of_edit ?_⟩
  rw [ht]
  rfl

theorem Step.run_addParameters (seed : Template) (p : Plan) :
    ∃ target : Template × Environment,
      Seed.addParameters seed p.template p.environment = .ok target ∧
      (Step.addParameters seed).run p =
        { p with template := target.1, environment := target.2 } := by
  obtain ⟨target, ht, -⟩ := Seed.names_addParameters seed p.template p.environment
  refine ⟨target, ht, Step.run_of_edit ?_⟩
  rw [ht]
  rfl

/-! ## The last steps on a namespace -/

/-- The step came after those before it, and nothing has removed the namespace since. -/
def Since (ns : String) (steps before : List Step) (s : Step) : Prop :=
  ∃ after, steps = before ++ s :: after ∧ .edit (.removeRole ns) ∉ after

theorem since_append_iff {ns : String} {steps before : List Step} {s last : Step} :
    Since ns (steps ++ [last]) before s ↔
      (before = steps ∧ s = last) ∨
        (last ≠ .edit (.removeRole ns) ∧ Since ns steps before s) := by
  constructor
  · rintro ⟨after, heq, hkept⟩
    -- The last step is the step itself, or it ends those that came after it.
    rcases List.eq_nil_or_concat after with rfl | ⟨rest, other, rfl⟩
    · obtain ⟨hbefore, hs⟩ := List.append_inj' heq rfl
      exact .inl ⟨hbefore.symm, (List.singleton_inj.mp hs).symm⟩
    · rw [List.concat_eq_append] at heq hkept
      rw [← List.cons_append, ← List.append_assoc] at heq
      obtain ⟨hsteps, hlast⟩ := List.append_inj' heq rfl
      rw [List.singleton_inj] at hlast
      rw [List.mem_append, not_or, List.mem_singleton, ← hlast] at hkept
      exact .inr ⟨fun h => hkept.2 h.symm, rest, hsteps, hkept.1⟩
  · rintro (⟨rfl, rfl⟩ | ⟨hne, after, rfl, hkept⟩)
    · exact ⟨[], rfl, List.not_mem_nil⟩
    · refine ⟨after ++ [last], by simp, fun hm => ?_⟩
      rcases List.mem_append.mp hm with hm | hm
      · exact hkept hm
      · exact hne (List.mem_singleton.mp hm).symm

/-- The addition was made, with success, and its namespace has not been removed since. -/
def Addition.LastIn (a : Addition) (steps : List Step) : Prop :=
  ∃ before, Since a.ns steps before (.edit a.edit) ∧
    a.edit.succeeds (runSteps before {}) = true ∧ (runSteps before {}).scaling = a.scaling

theorem Addition.lastIn_append_iff {a : Addition} {steps : List Step} {s : Step} :
    a.LastIn (steps ++ [s]) ↔
      (s = .edit a.edit ∧ a.edit.succeeds (runSteps steps {}) = true ∧
          (runSteps steps {}).scaling = a.scaling) ∨
        (s ≠ .edit (.removeRole a.ns) ∧ a.LastIn steps) := by
  simp only [Addition.LastIn, since_append_iff]
  constructor
  · rintro ⟨before, ⟨rfl, rfl⟩ | ⟨hne, hsince⟩, hmade⟩
    · exact .inl ⟨rfl, hmade⟩
    · exact .inr ⟨hne, before, hsince, hmade⟩
  · rintro (⟨rfl, hmade⟩ | ⟨hne, before, hsince, hmade⟩)
    · exact ⟨steps, .inl ⟨rfl, rfl⟩, hmade⟩
    · exact ⟨before, .inr ⟨hne, hsince⟩, hmade⟩

/-- The item was made by the last addition, or has been copied from a seed that has it. -/
def Origin {α : Type} (ns : String) (steps : List Step) (last : Option Addition)
    (made : Addition → List α) (copy : Template → Step) (copied : Template → List α) (item : α) :
    Prop :=
  (∃ a ∈ last, item ∈ made a) ∨
    ∃ before seed, Since ns steps before (copy seed) ∧ item ∈ copied seed

theorem Origin.append {α : Type} {ns : String} {steps : List Step} {last next : Option Addition}
    {made : Addition → List α} {copy : Template → Step} {copied : Template → List α} {item : α}
    (h : Origin ns steps last made copy copied item) {s : Step}
    (hs : s ≠ .edit (.removeRole ns)) (hnext : ∀ a ∈ last, a ∈ next) :
    Origin ns (steps ++ [s]) next made copy copied item := by
  rcases h with ⟨a, ha, hmade⟩ | ⟨before, seed, hsince, hcopied⟩
  · exact .inl ⟨a, hnext a ha, hmade⟩
  · exact .inr ⟨before, seed, since_append_iff.mpr (.inr ⟨hs, hsince⟩), hcopied⟩

/-! ## The origin of everything -/

abbrev OriginOfParameter (ns : String) (steps : List Step) (last : Option Addition) :
    String × Parameter → Prop :=
  Origin ns steps last Addition.declared .addParameters (·.parameters.entries)

abbrev OriginOfValue (ns : String) (steps : List Step) (last : Option Addition) : String → Prop :=
  Origin ns steps last (·.declared.map (·.1)) .addParameters (·.parameters.names)

abbrev OriginOfResource (ns : String) (steps : List Step) (last : Option Addition) :
    String × Resource → Prop :=
  Origin ns steps last (fun a => [(a.id, a.resource)]) .addResources (·.resources.entries)

abbrev OriginOfOutput (ns : String) (steps : List Step) (last : Option Addition) :
    String × Output → Prop :=
  Origin ns steps last Addition.passed .addOutputs (·.outputs.entries)

/-- All that bears a name of the namespace has its origin in the steps; `last` is the addition that
they made last, if there is one. -/
structure Traced (ns : String) (steps : List Step) (last : Option Addition) (p : Plan) : Prop where
  made : ∀ a, a ∈ last ↔ a.ns = ns ∧ a.LastIn steps
  registry : ∀ a ∈ last, Namespace.aliasOf ns ∈ p.environment.registry.names
  parameters : ∀ entry ∈ p.template.parameters.entries, Namespace.owns ns entry.1 = true →
    OriginOfParameter ns steps last entry
  values : ∀ name ∈ p.environment.parameters.names, Namespace.owns ns name = true →
    OriginOfValue ns steps last name
  resources : ∀ entry ∈ p.template.resources.entries, isRoleId ns entry.1 = true →
    OriginOfResource ns steps last entry
  outputs : ∀ entry ∈ p.template.outputs.entries, Namespace.owns ns entry.1 = true →
    OriginOfOutput ns steps last entry

namespace Traced

variable {ns : String} {steps : List Step} {last next : Option Addition} {p q : Plan} {s : Step}

theorem nil (ns : String) : Traced ns [] none {} := by
  have hnone : ∀ a : Addition, ¬ a.LastIn [] := by
    rintro a ⟨before, ⟨after, heq, -⟩, -⟩
    simp at heq
  constructor
  · simp [hnone]
  all_goals simp

/-- A step that does not remove the namespace keeps the account, if what it puts in has its origin
in it. -/
theorem append (h : Traced ns steps last p) (hs : s ≠ .edit (.removeRole ns))
    (hmade : ∀ a, a ∈ next ↔ a.ns = ns ∧ a.LastIn (steps ++ [s])) (hnext : ∀ a ∈ last, a ∈ next)
    (hregistry : ∀ a ∈ next, Namespace.aliasOf ns ∈ q.environment.registry.names)
    (hparameters : ∀ entry ∈ q.template.parameters.entries, Namespace.owns ns entry.1 = true →
      entry ∈ p.template.parameters.entries ∨ OriginOfParameter ns (steps ++ [s]) next entry)
    (hvalues : ∀ name ∈ q.environment.parameters.names, Namespace.owns ns name = true →
      name ∈ p.environment.parameters.names ∨ OriginOfValue ns (steps ++ [s]) next name)
    (hresources : ∀ entry ∈ q.template.resources.entries, isRoleId ns entry.1 = true →
      entry ∈ p.template.resources.entries ∨ OriginOfResource ns (steps ++ [s]) next entry)
    (houtputs : ∀ entry ∈ q.template.outputs.entries, Namespace.owns ns entry.1 = true →
      entry ∈ p.template.outputs.entries ∨ OriginOfOutput ns (steps ++ [s]) next entry) :
    Traced ns (steps ++ [s]) next q := by
  refine ⟨hmade, hregistry, ?_, ?_, ?_, ?_⟩
  · intro entry he hown
    exact (hparameters entry he hown).elim
      (fun hold => (h.parameters entry hold hown).append hs hnext) id
  · intro name hm hown
    exact (hvalues name hm hown).elim
      (fun hold => (h.values name hold hown).append hs hnext) id
  · intro entry he hown
    exact (hresources entry he hown).elim
      (fun hold => (h.resources entry hold hown).append hs hnext) id
  · intro entry he hown
    exact (houtputs entry he hown).elim
      (fun hold => (h.outputs entry hold hown).append hs hnext) id

/-- Where the step adds no role to the namespace, the last addition stays what it was. -/
theorem made_append (h : Traced ns steps last (runSteps steps {}))
    (hs : s ≠ .edit (.removeRole ns))
    (hadd : ∀ a : Addition, a.ns = ns → s = .edit a.edit →
      a.edit.succeeds (runSteps steps {}) = false) (a : Addition) :
    a ∈ last ↔ a.ns = ns ∧ a.LastIn (steps ++ [s]) := by
  rw [h.made, Addition.lastIn_append_iff]
  refine and_congr_right fun hns => ⟨fun hlast => .inr ⟨hns ▸ hs, hlast⟩, ?_⟩
  rintro (⟨hedit, hsucceeds, -⟩ | ⟨-, hlast⟩)
  · rw [hadd a hns hedit] at hsucceeds
    cases hsucceeds
  · exact hlast

/-- A step that puts nothing into the namespace. -/
theorem quiet (h : Traced ns steps last (runSteps steps {})) (hs : s ≠ .edit (.removeRole ns))
    (hadd : ∀ a : Addition, a.ns = ns → s = .edit a.edit →
      a.edit.succeeds (runSteps steps {}) = false)
    (hregistry : Namespace.aliasOf ns ∈ (runSteps steps {}).environment.registry.names →
      Namespace.aliasOf ns ∈ q.environment.registry.names)
    (hparameters : ∀ entry ∈ q.template.parameters.entries, Namespace.owns ns entry.1 = true →
      entry ∈ (runSteps steps {}).template.parameters.entries)
    (hvalues : ∀ name ∈ q.environment.parameters.names, Namespace.owns ns name = true →
      name ∈ (runSteps steps {}).environment.parameters.names)
    (hresources : ∀ entry ∈ q.template.resources.entries, isRoleId ns entry.1 = true →
      entry ∈ (runSteps steps {}).template.resources.entries)
    (houtputs : ∀ entry ∈ q.template.outputs.entries, Namespace.owns ns entry.1 = true →
      entry ∈ (runSteps steps {}).template.outputs.entries) :
    Traced ns (steps ++ [s]) last q :=
  h.append hs (h.made_append hs hadd) (fun _ ha => ha)
    (fun a ha => hregistry (h.registry a ha))
    (fun entry he hown => .inl (hparameters entry he hown))
    (fun name hm hown => .inl (hvalues name hm hown))
    (fun entry he hid => .inl (hresources entry he hid))
    (fun entry he hown => .inl (houtputs entry he hown))

theorem removed (ns : String) (steps : List Step) (p : Plan) :
    Traced ns (steps ++ [.edit (.removeRole ns)]) none (p.removeRole ns) := by
  -- No filter lets a name of the namespace pass, so that there is nothing left to account for.
  have hgone : ∀ {α : Type} (t : Table α) (owned : String → Bool),
      ∀ name ∈ (t.keep (!owned ·)).names, ¬ owned name = true := by
    intro α t owned name hm
    rw [Table.names_keep, List.mem_filter] at hm
    simpa using hm.2
  rw [removeRole_eq]
  constructor
  · rintro a
    rw [Addition.lastIn_append_iff]
    refine ⟨fun ha => by simp at ha, ?_⟩
    rintro ⟨rfl, ⟨hedit, -⟩ | ⟨hne, -⟩⟩
    · cases hedit
    · exact absurd rfl hne
  · simp
  · exact fun entry he hown => absurd hown (hgone _ _ _ (List.mem_map_of_mem he))
  · exact fun name hm hown => absurd hown (hgone _ _ _ hm)
  · exact fun entry he hid => absurd hid (hgone _ _ _ (List.mem_map_of_mem he))
  · exact fun entry he hown => absurd hown (hgone _ _ _ (List.mem_map_of_mem he))

/-! ## One step -/

theorem removeRole_of_ne (h : Traced ns steps last (runSteps steps {})) {other : String}
    (hne : other ≠ ns) :
    Traced ns (steps ++ [.edit (.removeRole other)]) last
      ((runSteps steps {}).removeRole other) := by
  refine h.quiet (by simpa using hne) (fun a _ hedit => by cases hedit) ?_ ?_ ?_ ?_ ?_
  all_goals rw [removeRole_eq]
  · intro hm
    rw [Table.names_keep, List.mem_filter]
    exact ⟨hm, by simpa [Namespace.aliasOf_inj] using hne.symm⟩
  · exact fun entry he _ => (List.mem_filter.mp he).1
  · intro name hm _
    rw [Table.names_keep] at hm
    exact (List.mem_filter.mp hm).1
  · exact fun entry he _ => (List.mem_filter.mp he).1
  · exact fun entry he _ => (List.mem_filter.mp he).1

theorem withRole_of_ne (h : Traced ns steps last (runSteps steps {})) (hns : Namespace.Simple ns)
    {other : String} (hother : Namespace.Simple other) (hne : other ≠ ns) (role : Template)
    (filename : String) (overrides : Table Value) :
    Traced ns (steps ++ [.edit (.addRole other role filename overrides)]) last
      ((runSteps steps {}).withRole other role filename overrides) := by
  have hapart : ∀ name, Namespace.owns other name = true → ¬ Namespace.owns ns name = true :=
    fun name hn => by rw [hother.owns_eq_false hns hne hn]; exact Bool.false_ne_true
  refine h.quiet (by simp) ?_ ?_ ?_ ?_ ?_ ?_
  · intro a ha hedit
    injection hedit with hedit
    injection hedit with hother
    exact absurd (hother.trans ha) hne
  · intro hm
    rw [withRole, Table.names_extend]
    exact List.mem_append_left _ hm
  · intro entry he hown
    exact (List.mem_append.mp he).resolve_right fun hnew =>
      hapart _ (owns_declared (List.mem_map_of_mem hnew)) hown
  · intro name hm hown
    rw [withRole, Table.names_extend, List.mem_append, map_fst_firstValues] at hm
    exact hm.resolve_right fun hnew => hapart _ (owns_declared hnew) hown
  · intro entry he hid
    refine (List.mem_append.mp he).resolve_right fun hnew => ?_
    rw [List.mem_singleton.mp hnew, isRoleId_roleId_of_ne _ hne.symm] at hid
    cases hid
  · intro entry he hown
    exact (List.mem_append.mp he).resolve_right fun hnew =>
      hapart _ (owns_passed (List.mem_map_of_mem hnew)) hown

/-- A role is added to a free namespace only, so that no addition before it is left. -/
theorem withRole (h : Traced ns steps last (runSteps steps {})) {role : Template}
    {filename : String} {overrides : Table Value} (hfree : (runSteps steps {}).Free ns)
    (hsucceeds : (Edit.addRole ns role filename overrides).succeeds (runSteps steps {}) = true) :
    Traced ns (steps ++ [.edit (.addRole ns role filename overrides)])
      (some ⟨ns, role, filename, overrides, (runSteps steps {}).scaling⟩)
      ((runSteps steps {}).withRole ns role filename overrides) := by
  have hnone : ∀ a, a ∉ last := fun a ha => hfree.registry (h.registry a ha)
  let added : Addition := ⟨ns, role, filename, overrides, (runSteps steps {}).scaling⟩
  refine h.append (by simp) (fun a => ?_) (fun a ha => absurd ha (hnone a)) ?_ ?_ ?_ ?_ ?_
  · rw [Addition.lastIn_append_iff]
    constructor
    · intro ha
      cases Option.mem_some_iff.mp ha
      exact ⟨rfl, .inl ⟨rfl, hsucceeds, rfl⟩⟩
    · rintro ⟨hns, ⟨hedit, -, hscaling⟩ | ⟨-, hlast⟩⟩
      · obtain ⟨ns', role', filename', overrides', scaling'⟩ := a
        cases hedit
        cases hscaling
        rfl
      · exact absurd ((h.made a).mpr ⟨hns, hlast⟩) (hnone a)
  · intro _ _
    rw [Plan.withRole, Table.names_extend]
    exact List.mem_append_right _ (List.mem_singleton_self _)
  · intro entry he _
    exact (List.mem_append.mp he).imp_right fun hnew => .inl ⟨added, rfl, hnew⟩
  · intro name hm _
    rw [Plan.withRole, Table.names_extend, List.mem_append, map_fst_firstValues] at hm
    exact hm.imp_right fun hnew => .inl ⟨added, rfl, hnew⟩
  · intro entry he _
    exact (List.mem_append.mp he).imp_right fun hnew => .inl ⟨added, rfl, hnew⟩
  · intro entry he _
    exact (List.mem_append.mp he).imp_right fun hnew => .inl ⟨added, rfl, hnew⟩

theorem edit (h : Traced ns steps last (runSteps steps {})) (hns : Namespace.Simple ns) {e : Edit}
    (he : e.Proper) :
    ∃ next, Traced ns (steps ++ [.edit e]) next (e.run (runSteps steps {})) := by
  cases hs : e.succeeds (runSteps steps {}) with
  | false =>
      rw [Edit.run_of_fails he hs]
      refine ⟨last, h.quiet ?_ ?_ id (fun _ hm _ => hm) (fun _ hm _ => hm) (fun _ hm _ => hm)
        fun _ hm _ => hm⟩
      · rintro heq
        cases heq
        cases hs
      · rintro a - heq
        cases heq
        exact hs
  | true =>
      cases e with
      | withScaling scaling =>
          exact ⟨last, h.quiet (by simp) (fun a _ hedit => by cases hedit) id
            (fun _ hm _ => hm) (fun _ hm _ => hm) (fun _ hm _ => hm) fun _ hm _ => hm⟩
      | setValue name value =>
          obtain ⟨hrun, hsucc⟩ := Edit.setValue_on (runSteps steps {}) name value
          rw [hsucc] at hs
          rw [hrun, if_pos hs]
          refine ⟨last, h.quiet (by simp) (fun a _ hedit => by cases hedit) id
            (fun _ hm _ => hm) ?_ (fun _ hm _ => hm) fun _ hm _ => hm⟩
          intro other hm _
          rwa [withValue, Table.names_put_of_mem (Table.contains_iff_mem_names.mp hs)] at hm
      | removeRole other =>
          by_cases hne : other = ns
          · subst hne
            exact ⟨none, removed other steps _⟩
          · exact ⟨last, h.removeRole_of_ne hne⟩
      | addRole other role filename overrides =>
          obtain ⟨hfree, hrun⟩ := Edit.free_of_addRole_succeeds he.2 hs
          rw [hrun]
          by_cases hne : other = ns
          · subst hne
            exact ⟨_, h.withRole hfree hs⟩
          · exact ⟨last, h.withRole_of_ne hns he.1 hne role filename overrides⟩

/-- What has just been copied has its origin in the seed. -/
theorem origin_of_copy {α : Type} {made : Addition → List α} {copy : Template → Step}
    {copied : Template → List α} {seed : Template} {item : α} (h : item ∈ copied seed) :
    Origin ns (steps ++ [copy seed]) last made copy copied item :=
  .inr ⟨steps, seed, since_append_iff.mpr (.inl ⟨rfl, rfl⟩), h⟩

theorem addResources (h : Traced ns steps last (runSteps steps {})) (seed : Template) :
    Traced ns (steps ++ [.addResources seed]) last
      ((Step.addResources seed).run (runSteps steps {})) := by
  obtain ⟨t, ht, hrun⟩ := Step.run_addResources seed (runSteps steps {})
  obtain ⟨hparameters, houtputs, hresources⟩ := Seed.copied_of_addResources ht
  rw [hrun]
  refine h.append (by simp) (h.made_append (by simp) fun a _ hedit => by cases hedit)
    (fun _ ha => ha) h.registry ?_ (fun _ hm _ => .inl hm) ?_ ?_
  · exact fun entry he _ => .inl (hparameters ▸ he)
  · exact fun entry he _ => (hresources entry he).imp_right fun hnew => origin_of_copy hnew.1
  · exact fun entry he _ => .inl (houtputs ▸ he)

theorem addOutputs (h : Traced ns steps last (runSteps steps {})) (seed : Template) :
    Traced ns (steps ++ [.addOutputs seed]) last
      ((Step.addOutputs seed).run (runSteps steps {})) := by
  obtain ⟨t, ht, hrun⟩ := Step.run_addOutputs seed (runSteps steps {})
  obtain ⟨hparameters, hresources, houtputs⟩ := Seed.copied_of_addOutputs ht
  rw [hrun]
  refine h.append (by simp) (h.made_append (by simp) fun a _ hedit => by cases hedit)
    (fun _ ha => ha) h.registry ?_ (fun _ hm _ => .inl hm) ?_ ?_
  · exact fun entry he _ => .inl (hparameters ▸ he)
  · exact fun entry he _ => .inl (hresources ▸ he)
  · exact fun entry he _ => (houtputs entry he).imp_right origin_of_copy

theorem addParameters (h : Traced ns steps last (runSteps steps {})) (seed : Template) :
    Traced ns (steps ++ [.addParameters seed]) last
      ((Step.addParameters seed).run (runSteps steps {})) := by
  obtain ⟨target, ht, hrun⟩ := Step.run_addParameters seed (runSteps steps {})
  obtain ⟨hresources, houtputs, hregistry, hparameters, hvalues⟩ :=
    Seed.copied_of_addParameters ht
  rw [hrun]
  refine h.append (by simp) (h.made_append (by simp) fun a _ hedit => by cases hedit)
    (fun _ ha => ha) (hregistry ▸ h.registry) ?_ ?_ ?_ ?_
  · exact fun entry he _ => (hparameters entry he).imp_right origin_of_copy
  · exact fun name hm _ => (hvalues name hm).imp_right origin_of_copy
  · exact fun entry he _ => .inl (hresources ▸ he)
  · exact fun entry he _ => .inl (houtputs ▸ he)

end Traced

/-! ## Runs -/

/-- Whatever the steps were, all that bears a name of the namespace has its origin in them. -/
theorem exists_traced {ns : String} (hns : Namespace.Simple ns) {steps : List Step}
    (hsteps : ∀ s ∈ steps, s.Proper) : ∃ last, Traced ns steps last (runSteps steps {}) := by
  -- The run grows at its end: what a step puts in is accounted for by the plan before it.
  induction steps using List.reverseRecOn with
  | nil => exact ⟨none, .nil ns⟩
  | append_singleton steps s ih =>
      obtain ⟨hsteps, hs⟩ := List.forall_mem_append.mp hsteps
      replace hs : s.Proper := hs s List.mem_cons_self
      obtain ⟨last, h⟩ := ih hsteps
      rw [runSteps_append_singleton]
      cases s with
      | edit e =>
          rw [Step.run_edit]
          exact h.edit hns hs
      | addResources seed => exact ⟨last, h.addResources seed⟩
      | addParameters seed => exact ⟨last, h.addParameters seed⟩
      | addOutputs seed => exact ⟨last, h.addOutputs seed⟩
      | updateReferences role id => cases hs

/-- Where no addition is left, the seed has been copied from in one of the steps. -/
theorem Origin.of_none {α : Type} {ns : String} {steps : List Step} {last : Option Addition}
    {made : Addition → List α} {copy : Template → Step} {copied : Template → List α} {item : α}
    (h : Origin ns steps last made copy copied item) (hnone : ∀ a, a ∉ last) :
    ∃ seed, copy seed ∈ steps ∧ item ∈ copied seed := by
  rcases h with ⟨a, ha, -⟩ | ⟨before, seed, ⟨after, rfl, -⟩, hcopied⟩
  · exact absurd ha (hnone a)
  · exact ⟨seed, by simp, hcopied⟩

/-- A namespace without a role is free, unless a seed has names for it. -/
theorem Traced.free {ns : String} {steps : List Step} {last : Option Addition} {p : Plan}
    (h : Traced ns steps last p) (hns : ns ∉ p.roleNamespaces)
    (hseeds : ∀ s ∈ steps, ¬ s.Bears ns) : p.Free ns := by
  have halias : Namespace.aliasOf ns ∉ p.environment.registry.names := fun hm =>
    hns (List.mem_filterMap.mpr ⟨_, hm, Namespace.ofAlias?_aliasOf ns⟩)
  have hnone : ∀ a, a ∉ last := fun a ha => halias (h.registry a ha)
  have hids : ∀ id ∈ p.template.resources.names, ¬ isRoleId ns id = true := by
    intro id hm hid
    obtain ⟨entry, he, rfl⟩ := List.mem_map.mp hm
    obtain ⟨seed, hstep, hcopied⟩ := (h.resources entry he hid).of_none hnone
    exact hseeds _ hstep ⟨_, List.mem_map_of_mem hcopied, hid⟩
  constructor
  · exact halias
  · exact fun hm => hids _ hm (by simp [isRoleId])
  · exact fun hm => hids _ hm (by simp [isRoleId])
  · intro name hm
    obtain ⟨entry, he, rfl⟩ := List.mem_map.mp hm
    refine Bool.eq_false_iff.mpr fun hown => ?_
    obtain ⟨seed, hstep, hcopied⟩ := (h.parameters entry he hown).of_none hnone
    exact hseeds _ hstep ⟨_, List.mem_map_of_mem hcopied, hown⟩
  · intro name hm
    refine Bool.eq_false_iff.mpr fun hown => ?_
    obtain ⟨seed, hstep, hcopied⟩ := (h.values name hm hown).of_none hnone
    exact hseeds _ hstep ⟨_, hcopied, hown⟩
  · intro name hm
    obtain ⟨entry, he, rfl⟩ := List.mem_map.mp hm
    refine Bool.eq_false_iff.mpr fun hown => ?_
    obtain ⟨seed, hstep, hcopied⟩ := (h.outputs entry he hown).of_none hnone
    exact hseeds _ hstep ⟨_, List.mem_map_of_mem hcopied, hown⟩

/-- What a filter takes away fails its test. -/
private theorem owned_of_not_mem_keep {α : Type} {t : Table α} {owned : String → Bool}
    {entry : String × α} (he : entry ∈ t.entries) (hgone : entry ∉ (t.keep (!owned ·)).entries) :
    owned entry.1 = true := by
  by_contra hkept
  exact hgone (List.mem_filter.mpr ⟨he, by simpa using hkept⟩)

/-- All that the removal of a namespace takes away was put there by the last addition of a role to
it, or copied since from a seed that gives it its name. If no seed has a name of the namespace, then
removing it without a role in it changes nothing. -/
theorem origin_of_removed {steps : List Step} (hsteps : ∀ s ∈ steps, s.Proper) {ns : String}
    (hns : Namespace.Simple ns) :
    let p := runSteps steps {}
    let left := p.removeRole ns
    ∃ last : Option Addition, (∀ a, a ∈ last ↔ a.ns = ns ∧ a.LastIn steps) ∧
      (∀ entry ∈ p.template.parameters.entries, entry ∉ left.template.parameters.entries →
        OriginOfParameter ns steps last entry) ∧
      (∀ name ∈ p.environment.parameters.names, name ∉ left.environment.parameters.names →
        OriginOfValue ns steps last name) ∧
      (∀ entry ∈ p.template.resources.entries, entry ∉ left.template.resources.entries →
        OriginOfResource ns steps last entry) ∧
      (∀ entry ∈ p.template.outputs.entries, entry ∉ left.template.outputs.entries →
        OriginOfOutput ns steps last entry) ∧
      ((∀ s ∈ steps, ¬ s.Bears ns) → ns ∉ p.roleNamespaces → left = p) := by
  intro p left
  obtain ⟨last, h⟩ := exists_traced hns hsteps
  have hleft : left = p.removeRole ns := rfl
  rw [removeRole_eq] at hleft
  refine ⟨last, h.made, ?_, ?_, ?_, ?_, fun hseeds hnot => ?_⟩
  · intro entry he hgone
    rw [hleft] at hgone
    exact h.parameters entry he (owned_of_not_mem_keep he hgone)
  · intro name hm hgone
    rw [hleft, Table.names_keep, List.mem_filter, not_and] at hgone
    exact h.values name hm (by simpa using hgone hm)
  · intro entry he hgone
    rw [hleft] at hgone
    exact h.resources entry he (owned_of_not_mem_keep he hgone)
  · intro entry he hgone
    rw [hleft] at hgone
    exact h.outputs entry he (owned_of_not_mem_keep he hgone)
  · exact removeRole_eq_self_iff.mpr (h.free hnot hseeds)

/-- A seed with a resource that is named like the one of a role. -/
def ghostSeed : Template := { resources := ⟨[("ghost-1-resource", { type := "T" })]⟩ }

/-- The seed is copied into the plan, and then a role is added. -/
def ghostSteps : List Step :=
  [.addResources ghostSeed, .edit (.addRole "a-1" {} "a.yaml" .empty)]

theorem origin_of_removed_ghostSteps :
    (∀ s ∈ ghostSteps, s.Proper) ∧ Namespace.Simple "a-1" ∧
      let p := runSteps ghostSteps {}
      ∃ last : Option Addition, (∀ a, a ∈ last ↔ a.ns = "a-1" ∧ a.LastIn ghostSteps) ∧
        ∀ entry ∈ p.template.resources.entries,
          entry ∉ (p.removeRole "a-1").template.resources.entries →
            OriginOfResource "a-1" ghostSteps last entry := by
  have hns : Namespace.Simple "a-1" := by decide
  have hrole : ({} : Template).Distinct := ⟨by decide, by decide, by decide⟩
  have hproper : ∀ s ∈ ghostSteps, s.Proper :=
    List.forall_mem_cons.mpr ⟨trivial, List.forall_mem_singleton.mpr ⟨hns, hrole⟩⟩
  obtain ⟨last, hmade, -, -, hresources, -, -⟩ := origin_of_removed hproper hns
  exact ⟨hproper, hns, last, hmade, hresources⟩

/-- No role was ever added to the namespace, but removing it takes away what the seed has named
like a part of one. -/
theorem removeRole_ghostSeed :
    let p := runSteps [.addResources ghostSeed] {}
    Namespace.Simple "ghost-1" ∧ "ghost-1" ∉ p.roleNamespaces ∧
      p.template.resources.names = ["ghost-1-resource"] ∧
      (p.removeRole "ghost-1").template.resources.names = [] := by
  intro p
  exact ⟨by decide +kernel, by decide, by decide, by decide⟩

end RolePlan.Plan
