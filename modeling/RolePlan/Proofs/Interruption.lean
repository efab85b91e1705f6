import RolePlan.Description.Check
import RolePlan.Proofs.Keeping

/-!
# What a failed task leaves

The two texts of a plan are put one after the other. A task that fails before the first of them is
put changes no text at all. A storage that takes the template and refuses the environment is left
with half of the new plan.
-/

namespace RolePlan

namespace Storage

variable {S : Type} [Storage (StateM S)]

/-- In a good state no request but a write changes a text. A write to a closed path fails and
changes nothing; every other text is there from then on, and all else is as before. -/
structure Guarding (good : S → Prop) (closed : String → Prop) : Prop where
  read : ∀ s path, good s →
    let after := ((Storage.read (m := StateM S) path).run s).2
    good after ∧ text after = text s
  holds : ∀ s path, good s →
    let after := ((Storage.holds (m := StateM S) path).run s).2
    good after ∧ text after = text s
  refused : ∀ s path written, good s → closed path →
    let outcome := (Storage.write (m := StateM S) path written).run s
    (∃ fault, outcome.1 = .error fault) ∧ good outcome.2 ∧ text outcome.2 = text s
  taken : ∀ s path written, good s → ¬ closed path →
    let outcome := (Storage.write (m := StateM S) path written).run s
    outcome.1 = .ok () ∧ good outcome.2 ∧
      text outcome.2 = Function.update (text s) path (.ok written)

/-- How a write ends, and with which texts. -/
inductive WriteEnds (closed : String → Prop) (path written : String)
    (texts : String → Description.Answer) :
    Except Error Unit → (String → Description.Answer) → Prop where
  | refused (fault : StorageFault) (h : closed path) :
      WriteEnds closed path written texts (.error (.storage fault)) texts
  | taken (h : ¬ closed path) :
      WriteEnds closed path written texts (.ok ()) (Function.update texts path (.ok written))

end Storage

/-- A shelf guards the paths that are closed for writing. -/
theorem Shelf.guarding (readOnly : List String) :
    Storage.Guarding (fun s : Shelf => s.readOnly = readOnly) (· ∈ readOnly) := by
  have hcontains : ∀ (s : Shelf) path, s.readOnly = readOnly →
      ((s.note .write path).readOnly.contains path = true ↔ path ∈ readOnly) := by
    intro s path hs
    rw [List.contains_iff_mem, note, hs]
  refine ⟨fun s path hs => ⟨hs, rfl⟩, fun s path hs => ⟨hs, rfl⟩, ?_, ?_⟩
  · intro s path written hs hclosed
    rw [run_write, put, if_pos ((hcontains s path hs).mpr hclosed)]
    exact ⟨⟨_, rfl⟩, hs, rfl⟩
  · intro s path written hs hopen
    rw [run_write, put, if_neg (mt (hcontains s path hs).mp hopen)]
    exact ⟨rfl, hs, text_put (s.note .write path) path written⟩

open Job (Ends)
open Storage (text Guarding)

variable {S : Type} [Storage (StateM S)] {good : S → Prop} {closed : String → Prop}

/-! ## Work that changes no text -/

def Job.Spares {α : Type} (good : S → Prop) (job : Job (StateM S) α) : Prop :=
  ∀ s, good s → Ends job s fun _ t => good t ∧ text t = text s

namespace Job

variable {α β : Type}

theorem spares_pure (a : α) : Spares good (pure a) := fun _ hs => ends_pure ⟨hs, rfl⟩

theorem spares_ofExcept (result : Except Error α) : Spares good (ofExcept result) :=
  fun _ hs => ends_ofExcept ⟨hs, rfl⟩

theorem spares_warn (warning : Warning) : Spares good (warn warning) :=
  fun _ hs => ends_warn warning ⟨hs, rfl⟩

theorem Spares.bind {job : Job (StateM S) α} {f : α → Job (StateM S) β} (hjob : Spares good job)
    (hf : ∀ a, Spares good (f a)) : Spares good (job >>= f) := by
  intro s hs
  refine (hjob s hs).bind (fun a t ⟨ht, htext⟩ => ?_) fun e t ht => ht
  have hrest := hf a t ht
  rwa [htext] at hrest

theorem spares_foldlM {f : β → α → Job (StateM S) β} (h : ∀ b a, Spares good (f b a))
    (items : List α) (b : β) : Spares good (items.foldlM f b) := by
  induction items generalizing b with
  | nil => exact spares_pure b
  | cons item rest ih =>
      rw [List.foldlM_cons]
      exact (h b item).bind ih

theorem spares_forM_warn (warnings : List Warning) : Spares good (warnings.forM warn) := by
  induction warnings with
  | nil => exact spares_pure ()
  | cons warning rest ih => exact (spares_warn warning).bind fun _ => ih

variable (hguarding : Guarding good closed)
include hguarding

theorem spares_read (path : String) : Spares good (read path) :=
  fun s hs => ends_ofStorage (hguarding.read s path hs)

theorem spares_holds (path : String) : Spares good (holds path) :=
  fun s hs => ends_lift (hguarding.holds s path hs)

theorem ends_write (path written : String) {s : S} (hs : good s) :
    Ends (write path written) s fun result t =>
      good t ∧ Storage.WriteEnds closed path written (text s) result (text t) := by
  apply ends_ofStorage
  by_cases hclosed : closed path
  · obtain ⟨⟨fault, hanswer⟩, hgood, htext⟩ := hguarding.refused s path written hs hclosed
    rw [hanswer, htext]
    exact ⟨hgood, .refused fault hclosed⟩
  · obtain ⟨hanswer, hgood, htext⟩ := hguarding.taken s path written hs hclosed
    rw [hanswer, htext]
    exact ⟨hgood, .taken hclosed⟩

end Job

namespace Description

open Job (Spares)

theorem spares_templateOf (text : String) : Spares good (templateOf text) :=
  (Job.spares_ofExcept _).bind fun document =>
    (Job.spares_forM_warn (Template.warnings document)).bind fun _ => Job.spares_ofExcept _

theorem spares_environmentOf (text : String) : Spares good (environmentOf text) :=
  (Job.spares_ofExcept _).bind fun document =>
    (Job.spares_forM_warn (Environment.warnings document)).bind fun _ => Job.spares_ofExcept _

theorem spares_connectRole (seed : Template) (p : Plan) (r : Role) :
    Spares good (connectRole seed p r) := by
  rw [connectRole]
  split
  · exact (Job.spares_warn _).bind fun _ => Job.spares_pure _
  · exact Job.spares_pure _

section Building

variable (hguarding : Guarding good closed) (d : Description)
include hguarding

theorem spares_readTemplate (path : String) : Spares good (readTemplate path) :=
  (Job.spares_read hguarding path).bind spares_templateOf

theorem spares_addRole (seed : Option Template) (p : Plan) (r : Role) :
    Spares good (addRole seed p r) := by
  refine (spares_readTemplate hguarding r.template).bind fun template => ?_
  cases seed with
  | none => exact (Job.spares_pure none).bind fun _ => Job.spares_ofExcept _
  | some seed => exact (Job.spares_ofExcept _).bind fun _ => Job.spares_ofExcept _

theorem spares_build : Spares good d.build := by
  have hseed : Spares good (d.seed.mapM readTemplate) := by
    cases d.seed with
    | none => exact Job.spares_pure none
    | some path => exact (spares_readTemplate hguarding path).bind fun _ => Job.spares_pure _
  have hroles : ∀ seed, Spares good (d.roles.foldlM (addRole seed) d.emptyPlan) :=
    fun seed => Job.spares_foldlM (spares_addRole hguarding seed) d.roles d.emptyPlan
  refine hseed.bind fun seed => (hroles seed).bind fun p => ?_
  cases seed with
  | none => exact (Job.spares_pure p).bind fun _ => Job.spares_ofExcept _
  | some seed =>
      refine (Job.spares_ofExcept _).bind fun q => ?_
      exact (Job.spares_foldlM (spares_connectRole seed) d.roles q).bind fun _ =>
        Job.spares_ofExcept _

theorem spares_load : Spares good d.load := by
  have hread : Spares good (do
      let templateText ← Job.read d.output.templatePath
      let environmentText ← Job.read d.output.environmentPath
      let template ← templateOf templateText
      let environment ← environmentOf environmentText
      return ({ template, environment, scaling := d.scalingEnabled } : Plan)) :=
    (Job.spares_read hguarding _).bind fun _ => (Job.spares_read hguarding _).bind fun _ =>
      (spares_templateOf _).bind fun _ => (spares_environmentOf _).bind fun _ => Job.spares_pure _
  refine (Job.spares_holds hguarding d.output.templatePath).bind fun found => ?_
  cases found with
  | true => exact hread
  | false => exact (Job.spares_ofExcept (.error _)).bind fun _ => hread

end Building

/-! ## Tasks -/

/-- A task ends with the storing of a plan. -/
inductive Task where
  /-- The plan of the description is built. -/
  | compose
  /-- A namespace is removed from the plan that is stored. -/
  | remove (ns : String)

variable (d : Description)

def Task.prepare {m : Type → Type} [Monad m] [Storage m] (d : Description) : Task → Job m Plan
  | compose => d.build
  | remove ns => do
      let p ← d.load
      if !p.roleNamespaces.contains ns then Job.warn (.notInPlan ns)
      return p.removeRole ns

def Task.job {m : Type → Type} [Monad m] [Storage m] (d : Description) : Task → Job m Summary
  | compose => d.run
  | remove ns => d.remove ns

theorem Task.job_eq (k : Task) : (k.job d : Job (StateM S) Summary) = k.prepare d >>= d.store := by
  cases k with
  | compose => rfl
  | remove ns =>
      rw [job, prepare, Description.remove, bind_assoc]
      refine congrArg (d.load >>= ·) (funext fun p => ?_)
      dsimp only
      split
      · rfl
      · rfl

theorem Task.spares_prepare (hguarding : Guarding good closed) (k : Task) :
    Spares good (k.prepare d) := by
  cases k with
  | compose => exact spares_build hguarding d
  | remove ns =>
      refine (spares_load hguarding d).bind fun p => ?_
      split
      · exact (Job.spares_warn _).bind fun _ => Job.spares_pure _
      · exact Job.spares_pure _

/-- The template can be put and the environment cannot. -/
def Tears (closed : String → Prop) : Prop :=
  ¬ closed d.output.templatePath ∧ closed d.output.environmentPath

/-- The texts of a storage once the template of a plan is put, and nothing else. -/
def halfStored (p : Plan) (texts : String → Answer) : String → Answer :=
  Function.update texts d.output.templatePath (.ok p.compose.1)

/-- How the storing of a plan ends, and with which texts. -/
inductive StoreEnds (d : Description) (closed : String → Prop) (p : Plan)
    (texts : String → Answer) : Except Error Summary → (String → Answer) → Prop where
  | refused (fault : StorageFault) (h : closed d.output.templatePath) :
      StoreEnds d closed p texts (.error (.storage fault)) texts
  | torn (fault : StorageFault) (h : d.Tears closed) :
      StoreEnds d closed p texts (.error (.storage fault)) (d.halfStored p texts)
  | stored (htemplate : ¬ closed d.output.templatePath)
      (henvironment : ¬ closed d.output.environmentPath) :
      StoreEnds d closed p texts (.ok (d.summaryOf p)) (d.storedTexts p texts)

theorem ends_store (hguarding : Guarding good closed) (p : Plan) {s : S} (hs : good s) :
    Ends (d.store p) s fun result t => StoreEnds d closed p (text s) result (text t) := by
  have hfirst := Job.ends_write hguarding d.output.templatePath p.compose.1 hs
  refine hfirst.bind (fun _ t ⟨ht, hwritten⟩ => ?_) fun e t ⟨_, hwritten⟩ => ?_
  · have hsecond := Job.ends_write hguarding d.output.environmentPath p.compose.2 ht
    generalize text t = half at hwritten hsecond
    cases hwritten with
    | taken htemplate =>
        refine hsecond.bind (fun _ u ⟨_, hwritten⟩ => Job.ends_pure ?_) fun e u ⟨_, hwritten⟩ => ?_
        · generalize text u = after at hwritten
          cases hwritten with
          | taken henvironment => exact .stored htemplate henvironment
        · generalize text u = after at hwritten
          cases hwritten with
          | refused fault henvironment => exact .torn fault ⟨htemplate, henvironment⟩
  · generalize text t = after at hwritten
    cases hwritten with
    | refused fault htemplate => exact .refused fault htemplate

/-- A task that fails leaves all texts as they were, unless it was about to store a plan where the
template can be put and the environment cannot. There it fails in any case, and leaves the template
of that plan and all other texts as they were. -/
theorem failed_task (hguarding : Guarding good closed) (k : Task) {s : S} (hs : good s) :
    (∀ e t, (k.job d).on s = (.error e, t) → text t = text s ∨
      d.Tears closed ∧ ∃ p, ((k.prepare d).on s).1 = .ok p ∧
        text t = d.halfStored p (text s)) ∧
    (d.Tears closed → ∀ p, ((k.prepare d).on s).1 = .ok p →
      ∃ e t, (k.job d).on s = (.error e, t) ∧ text t = d.halfStored p (text s)) := by
  rw [Task.job_eq]
  obtain ⟨hgood, htext⟩ := (Task.spares_prepare d hguarding k s hs).on
  cases hprepare : (k.prepare d).on s with
  | mk result u =>
    rw [hprepare] at hgood htext
    cases result with
    | error e =>
        rw [Job.on_bind_of_error hprepare d.store]
        refine ⟨fun e' t h => .inl ?_, fun _ p hp => nomatch hp⟩
        cases h
        exact htext
    | ok p =>
        have hends := Ends.on_bind hprepare (ends_store d hguarding p hgood)
        rw [htext] at hends
        generalize (k.prepare d >>= d.store).on s = outcome at hends
        obtain ⟨result, t⟩ := outcome
        constructor
        · intro e t' h
          cases h
          generalize text t = after at hends
          cases hends with
          | refused fault h => exact .inl rfl
          | torn fault h => exact .inr ⟨h, p, rfl, rfl⟩
        · intro htears q hq
          cases hq
          generalize htext' : text t = after at hends
          cases hends with
          | refused fault h => exact absurd h htears.1
          | torn fault h => exact ⟨_, t, rfl, htext'⟩
          | stored htemplate henvironment => exact absurd htears.2 henvironment

def bareDescription : Description where
  name := "bare"
  output := { path := "out" }

/-- A shelf with a stored plan, whose environment is closed for writing. -/
def tornShelf : Shelf where
  texts := ⟨[("out/plan.yaml", "heat_template_version: 2014-10-16\ndescription: old\n"),
    ("out/environment.yaml", "parameters: {}\n")]⟩
  readOnly := ["out/environment.yaml"]

/-- Not every failed run leaves the stored plan as it was. -/
theorem run_tornShelf :
    bareDescription.check = .ok () ∧ ∃ e t,
      (bareDescription.run (m := StateM Shelf)).on tornShelf = (.error e, t) ∧
      text t bareDescription.output.templatePath ≠
        text tornShelf bareDescription.output.templatePath ∧
      text t bareDescription.output.environmentPath =
        text tornShelf bareDescription.output.environmentPath := by
  have hwritten : bareDescription.emptyPlan.compose.1 ≠
      "heat_template_version: 2014-10-16\ndescription: old\n" := by decide +kernel
  exact ⟨rfl, _, _, rfl, fun h => hwritten (Except.ok.inj h), rfl⟩

theorem failed_task_tornShelf :
    tornShelf.readOnly = ["out/environment.yaml"] ∧ ∃ e t,
      (bareDescription.run (m := StateM Shelf)).on tornShelf = (.error e, t) ∧
      text t = bareDescription.halfStored bareDescription.emptyPlan (text tornShelf) := by
  have htears : bareDescription.Tears (· ∈ ["out/environment.yaml"]) :=
    ⟨by decide, by decide⟩
  obtain ⟨-, hfails⟩ := failed_task bareDescription (Shelf.guarding ["out/environment.yaml"])
    .compose (s := tornShelf) rfl
  exact ⟨rfl, hfails htears bareDescription.emptyPlan rfl⟩

end Description

end RolePlan
