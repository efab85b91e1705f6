import RolePlan.Proofs.InlineTexts

/-!
# Reloading a plan

A plan that is stored and read again is the same plan with its inline resources expanded. No step
can tell the two apart: it answers the same on both, and leaves plans that differ in no more than
that. So plans can be reloaded anywhere in a run.
-/

namespace RolePlan.Plan

def reload (p : Plan) : Except Error Plan := do
  let q ← ofTexts p.compose.1 p.compose.2
  return q.withScaling p.scaling

/-- YAML gives back both documents of the plan. -/
def GivenBack (p : Plan) : Prop :=
  Yaml.GivesBack p.template.toDocument ∧ Yaml.GivesBack p.environment.toDocument

theorem reload_eq_expand {p : Plan} (h : p.Portable) (hback : p.GivenBack) :
    p.reload = .ok p.expand := by
  have htemplate : Template.parse p.compose.1 = .ok p.template.expand :=
    Template.parse_compose h.template.wellFormed h.template.storable hback.1
  have henvironment : Environment.parse p.compose.2 = .ok p.environment :=
    Environment.parse_compose h.environment hback.2
  rw [reload, ofTexts, htemplate, henvironment]
  rfl

/-! ## Steps on both forms -/

/-- The same answer, and plans that are the same once expanded. -/
def Alike {α : Type} (x y : Except Error α × Plan) : Prop := x.1 = y.1 ∧ x.2.expand = y.2.expand

theorem alike_edit {f : Plan → Except Error Plan} {p q : Plan} (hpq : p.expand = q.expand)
    (h : (f p).map expand = (f q).map expand) :
    Alike ((Change.edit f).on p) ((Change.edit f).on q) := by
  cases hp : f p with
  | error e =>
      cases hq : f q with
      | ok q' =>
          rw [hp, hq] at h
          cases h
      | error e' =>
          rw [hp, hq] at h
          cases h
          rw [Change.on_edit_of_error hp, Change.on_edit_of_error hq]
          exact ⟨rfl, hpq⟩
  | ok p' =>
      cases hq : f q with
      | error e =>
          rw [hp, hq] at h
          cases h
      | ok q' =>
          rw [hp, hq] at h
          rw [Change.on_edit_of_ok hp, Change.on_edit_of_ok hq]
          exact ⟨rfl, Except.ok.inj h⟩

/-- The same answer behind two alike changes. -/
theorem Alike.answer {c : Change Unit} {p q : Plan} (h : Alike (c.on p) (c.on q)) (count : Nat) :
    Alike ((do c; return count : Change Nat).on p) ((do c; return count : Change Nat).on q) := by
  rw [Change.on_bind, Change.on_bind]
  obtain ⟨hanswer, hplan⟩ := h
  rcases hp : c.on p with ⟨answer, p'⟩
  rcases hq : c.on q with ⟨answer', q'⟩
  rw [hp, hq] at hanswer hplan
  cases hanswer
  cases answer with
  | error e => exact ⟨rfl, hplan⟩
  | ok _ => exact ⟨rfl, hplan⟩

theorem isFree_expand (p : Plan) (ns : String) : p.expand.isFree ns = p.isFree ns := by
  simp only [isFree, expand, Template.expand, Table.contains_map]

theorem withRole_expand (p : Plan) (ns : String) (role : Template) (filename : String)
    (overrides : Table Value) :
    (p.expand.withRole ns role filename overrides).expand =
      (p.withRole ns role filename overrides).expand := by
  simp only [withRole, expand, Template.expand, Table.map_extend, Table.map_map,
    Resource.expand_expand]
  rfl

theorem removeRole_expand (p : Plan) (ns : String) :
    p.expand.removeRole ns = (p.removeRole ns).expand := by
  simp only [removeRole_eq, expand, Template.expand, Table.map_keep]

theorem Edit.alike_expand {e : Edit} (he : (Step.edit e).Sound) (p : Plan) :
    Alike (e.change.on p.expand) (e.change.on p) := by
  cases e with
  | withScaling scaling => exact ⟨rfl, expand_expand (p.withScaling scaling)⟩
  | removeRole ns =>
      refine ⟨rfl, ?_⟩
      simp only [change, Change.on_modify, removeRole_expand, expand_expand]
  | addRole ns role filename overrides =>
      obtain ⟨⟨text, hparse⟩, -⟩ := he
      have hrole := (Template.loaded_of_parse hparse).wellFormed.toDistinct
      have hclash : p.expand.countClashes role overrides = p.countClashes role overrides := rfl
      rw [change, on_mergeRole hrole, on_mergeRole hrole, isFree_expand, hclash]
      split
      · exact ⟨rfl, expand_expand p⟩
      · split
        · exact ⟨rfl, expand_expand p⟩
        · exact ⟨rfl, withRole_expand p ns role filename overrides⟩
  | setValue name value =>
      have hsame : p.expand.setValue name value = (p.setValue name value).map expand := by
        rw [Plan.setValue, Plan.setValue, expand]
        cases p.environment.setParameter name value <;> rfl
      refine alike_edit (expand_expand p) ?_
      rw [hsame]
      cases p.setValue name value with
      | error e => rfl
      | ok q => exact congrArg Except.ok (expand_expand q)

/-- An edit of the template on both forms, if it leaves templates of the same expanded form. -/
theorem alike_editTemplate {f : Template → Except Error Template} {p : Plan}
    (h : (f p.template.expand).map Template.expand = (f p.template).map Template.expand) :
    Alike ((Change.edit fun q => do return { q with template := ← f q.template }).on p.expand)
      ((Change.edit fun q => do return { q with template := ← f q.template }).on p) := by
  refine alike_edit (expand_expand p) (Proofs.map_bind_congr h fun t u htu => ?_)
  exact congrArg (fun t : Template => Except.ok { p with template := t }) htu

/-- A step answers the same on a plan and on its expanded form, and leaves alike plans. -/
theorem Step.alike_expand {s : Step} (hs : s.Sound) {p : Plan} (hp : p.Portable) :
    Alike (s.change.on p.expand) (s.change.on p) := by
  cases s with
  | edit e => exact (Edit.alike_expand hs p).answer 0
  | updateReferences role id =>
      have hnone : Seed.inlineTexts p.template = [] :=
        Seed.inlineTexts_of_settled hp.template.settled
      have hcount := Seed.count_updateReferences_expand p.template role id
      rw [hnone, List.countP_nil, Nat.add_zero] at hcount
      have hexpand := (Seed.expand_updateReferences_expand_iff p.template role id).mpr
        (by simp [hnone])
      exact ⟨congrArg Except.ok hcount,
        congrArg (fun t : Template => { p with template := t }) hexpand⟩
  | addResources seed =>
      refine (alike_editTemplate ?_).answer 0
      rw [Seed.map_expand_addResources, Seed.map_expand_addResources, Template.expand_expand]
  | addOutputs seed =>
      refine (alike_editTemplate ?_).answer 0
      rw [Seed.map_expand_addOutputs, Seed.map_expand_addOutputs, Template.expand_expand]
  | addParameters seed =>
      have hboth : (Seed.addParameters seed p.template.expand p.environment).map
          (Prod.map Template.expand id) =
            (Seed.addParameters seed p.template p.environment).map
              (Prod.map Template.expand id) := by
        rw [Seed.map_expand_addParameters, Seed.map_expand_addParameters, Template.expand_expand]
      refine (alike_edit (expand_expand p) (Proofs.map_bind_congr hboth ?_)).answer 0
      rintro ⟨t, e⟩ ⟨u, f⟩ htarget
      exact congrArg (fun target : Template × Environment =>
        Except.ok { p with template := target.1, environment := target.2 }) htarget

/-! ## Runs with reloads -/

inductive Event where
  | step (s : Step)
  | reload

def steps (script : List Event) : List Step :=
  script.filterMap fun
    | .step s => some s
    | .reload => none

def answers : List Step → Plan → List (Except Error Nat)
  | [], _ => []
  | s :: rest, p => (s.change.on p).1 :: answers rest (s.run p)

/-- Carries out a script. A reload that fails ends it; a step that fails is one of its answers. -/
def play : List Event → Plan → Except Error (List (Except Error Nat) × Plan)
  | [], p => .ok ([], p)
  | .step s :: rest, p => do
      let (more, q) ← play rest (s.run p)
      return ((s.change.on p).1 :: more, q)
  | .reload :: rest, p => do play rest (← p.reload)

/-- The plans that a run without reloads has at the places of the reloads. -/
def stored : List Event → Plan → List Plan
  | [], _ => []
  | .step s :: rest, p => stored rest (s.run p)
  | .reload :: rest, p => p :: stored rest p

theorem Step.alike_run {s : Step} (hs : s.Sound) {p q : Plan} (hp : p.Portable) (hq : q.Portable)
    (hpq : p.expand = q.expand) : Alike (s.change.on p) (s.change.on q) := by
  obtain ⟨hanswer, hplan⟩ := Step.alike_expand hs hp
  obtain ⟨hanswer', hplan'⟩ := Step.alike_expand hs hq
  rw [hpq] at hanswer hplan
  exact ⟨hanswer.symm.trans hanswer', hplan.symm.trans hplan'⟩

/-- Two plans that are the same once expanded go through a script side by side, one of them with
the reloads and one without. -/
theorem play_alike {script : List Event} {p q : Plan} (hsteps : ∀ s ∈ steps script, s.Sound)
    (hyaml : ∀ r ∈ stored script p, r.GivenBack) (hp : p.Portable) (hq : q.Portable)
    (hpq : p.expand = q.expand) :
    ∃ q', play script q = .ok (answers (steps script) p, q') ∧
      (runSteps (steps script) p).expand = q'.expand := by
  -- Both plans stay portable along the way: a reload needs it of one, a step of both.
  induction script generalizing p q with
  | nil => exact ⟨q, rfl, hpq⟩
  | cons event rest ih =>
      cases event with
      | step s =>
          obtain ⟨hs, hrest⟩ := List.forall_mem_cons.mp hsteps
          obtain ⟨hanswer, hplan⟩ := Step.alike_run hs hp hq hpq
          obtain ⟨q', hplay, hend⟩ := ih hrest hyaml (Step.keeps_portable hs p hp)
            (Step.keeps_portable hs q hq) hplan
          refine ⟨q', ?_, hend⟩
          rw [play, show play rest (s.run q) = _ from hplay, ← hanswer]
          rfl
      | reload =>
          obtain ⟨hback, hrest⟩ := List.forall_mem_cons.mp hyaml
          have hdocument : p.template.toDocument = q.template.toDocument := by
            rw [← Template.toDocument_expand, ← Template.toDocument_expand q.template]
            exact congrArg (fun p : Plan => p.template.toDocument) hpq
          have henvironment : p.expand.environment = q.expand.environment :=
            congrArg Plan.environment hpq
          change p.environment = q.environment at henvironment
          have hreload : q.reload = .ok q.expand := by
            refine reload_eq_expand hq ?_
            rwa [GivenBack, ← hdocument, ← henvironment]
          obtain ⟨q', hplay, hend⟩ := ih hsteps hrest hp hq.expand
            (hpq.trans (expand_expand q).symm)
          refine ⟨q', ?_, hend⟩
          rw [play, hreload]
          exact hplay

/-- Wherever a plan is reloaded in the course of a run, every reload succeeds, every step answers
as it does without the reloads, and the texts of the plan at the end are the same. -/
theorem reload_transparent {script : List Event} (hsteps : ∀ s ∈ steps script, s.Sound)
    (hyaml : ∀ p ∈ stored script {}, p.GivenBack) :
    ∃ q, play script {} = .ok (answers (steps script) {}, q) ∧
      q.compose = (runSteps (steps script) {}).compose := by
  obtain ⟨q, hplay, hend⟩ := play_alike hsteps hyaml portable_nil portable_nil rfl
  refine ⟨q, hplay, ?_⟩
  rw [← compose_expand, ← hend, compose_expand]

def sampleText : String := "parameters:\n  p:\n    type: string\n"

def sampleRole : Template := { parameters := ⟨[("p", { type := "string" })]⟩ }

/-- A role in a group is stored and reloaded before its size is set, and is then added again. -/
def sampleScript : List Event :=
  let addition : Edit := .addRole "a" sampleRole "a.yaml" ⟨[("p", .string "x")]⟩
  [.step (.edit addition), .reload, .step (.edit (.setValue "a::count" (.int 3))),
    .step (.updateReferences "x" "y"), .step (.edit addition)]

def samplePlan : Plan :=
  ({} : Plan).withRole "a" sampleRole "a.yaml" ⟨[("p", .string "x")]⟩

theorem parse_sampleText : Template.parse sampleText = .ok sampleRole := by
  let fields : Table Value :=
    ⟨[("parameters", .object ⟨[("p", .single "type" (.string "string"))]⟩)]⟩
  have hread : Yaml.Tree.read sampleText = .ok (Yaml.Tree.ofValue (.object fields)) :=
    Yaml.read_of_readsAs (by decide +kernel)
  have hwell : (Value.object fields).WellFormed := by
    simp [fields, Value.WellFormed, Value.WellFormedEntries, Value.single]
  rw [Template.parse, Yaml.load_of_read hwell (by decide) hread]
  rfl

def sampleTemplateLines : List String :=
  ["heat_template_version: 2014-10-16",
    "parameters:",
    "  a::count:",
    "    type: number",
    "    default: 1",
    "    constraints:",
    "    - range:",
    "        min: 1",
    "resources:",
    "  a-servers:",
    "    type: OS::Heat::ResourceGroup",
    "    properties:",
    "      count:",
    "        get_param: a::count",
    "      resource_def:",
    "        type: Tuskar::a",
    "        properties:",
    "          p: x"]

def sampleCharacters : List Char := sampleTemplateLines.flatMap fun line => line.toList ++ ['\n']

def sampleEnvironmentText : String :=
  "parameters:\n  a::count: 1\nresource_registry:\n  Tuskar::a: a.yaml\n"

theorem givenBack_samplePlan : samplePlan.GivenBack := by
  have htemplate : Yaml.write samplePlan.template.toDocument = String.ofList sampleCharacters := by
    decide +kernel
  have henvironment : Yaml.write samplePlan.environment.toDocument = sampleEnvironmentText := by
    decide +kernel
  constructor
  · refine Yaml.givesBack_of_write htemplate ?_
    rw [Yaml.readsAs, Yaml.Tree.read, Yaml.Token.scan, String.toList_ofList]
    decide +kernel
  · rw [Yaml.GivesBack, henvironment]
    exact Yaml.read_of_readsAs (by decide +kernel)

theorem reload_transparent_sampleScript :
    (∀ s ∈ steps sampleScript, s.Sound) ∧ (∀ p ∈ stored sampleScript {}, p.GivenBack) ∧
      ∃ q, play sampleScript {} =
          .ok ([.ok 0, .ok 0, .ok 0, .error (.duplicate .namespaceName "a")], q) ∧
        q.compose = (runSteps (steps sampleScript) {}).compose := by
  have hsteps : ∀ s ∈ steps sampleScript, s.Sound := by
    have haddition : (Step.edit (.addRole "a" sampleRole "a.yaml"
        ⟨[("p", .string "x")]⟩)).Sound :=
      ⟨⟨sampleText, parse_sampleText⟩, by simp⟩
    simp only [steps, sampleScript, List.filterMap_cons, List.filterMap_nil, List.forall_mem_cons]
    exact ⟨haddition, trivial, trivial, haddition, by simp⟩
  have hstored : stored sampleScript {} = [samplePlan] := rfl
  have hyaml : ∀ p ∈ stored sampleScript {}, p.GivenBack := by
    rw [hstored, List.forall_mem_singleton]
    exact givenBack_samplePlan
  exact ⟨hsteps, hyaml, reload_transparent hsteps hyaml⟩

end RolePlan.Plan
