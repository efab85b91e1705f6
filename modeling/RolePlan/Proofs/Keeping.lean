import Mathlib.Logic.Function.Basic
import RolePlan.Proofs.Reload
import RolePlan.Proofs.Sources
import RolePlan.Storage

/-!
# Storages that keep what they are given

On a storage that takes every text and gives back what was put there last, a plan is stored and
loaded again under its two paths.
-/

namespace RolePlan

namespace Storage

variable {S : Type} [Storage (StateM S)]

def text (s : S) (path : String) : Except StorageFault String :=
  ((Storage.read (m := StateM S) path).run s).1

/-- From a good state, reading leads to a good state and changes no text. -/
def Steady (good : S → Prop) : Prop :=
  ∀ s path, good s →
    let after := ((Storage.read (m := StateM S) path).run s).2
    good after ∧ text after = text s

/-- In a good state the storage takes every text and has it from then on, it knows of the texts
that it has, and no request changes any other text. -/
structure Keeping (good : S → Prop) : Prop where
  read : ∀ s path, good s →
    let after := ((Storage.read (m := StateM S) path).run s).2
    good after ∧ text after = text s
  write : ∀ s path written, good s →
    let outcome := (Storage.write (m := StateM S) path written).run s
    outcome.1 = .ok () ∧ good outcome.2 ∧
      text outcome.2 = Function.update (text s) path (.ok written)
  holds : ∀ s path, good s →
    let outcome := (Storage.holds (m := StateM S) path).run s
    (∀ found, text s path = .ok found → outcome.1 = true) ∧ good outcome.2 ∧
      text outcome.2 = text s

end Storage

theorem Shelf.run_write (s : Shelf) (path written : String) :
    (Storage.write (m := StateM Shelf) path written).run s =
      (s.note .write path).put path written := rfl

theorem Shelf.text_put (s : Shelf) (path written : String) :
    Storage.text { s with texts := s.texts.put path written } =
      Function.update (Storage.text s) path (.ok written) := by
  funext other
  have hfind : ∀ t : Shelf, Storage.text t other = t.find other := fun t => rfl
  rw [hfind, Function.update_apply, hfind, find, find, Table.find?_put]
  by_cases h : other = path
  · rw [if_pos h, if_pos h]
  · rw [if_neg h, if_neg h]

/-- A shelf keeps what it is given, unless paths are closed for writing. -/
theorem Shelf.keeping : Storage.Keeping fun s : Shelf => s.readOnly = [] := by
  refine ⟨fun s path hs => ⟨hs, rfl⟩, fun s path written hs => ?_, fun s path hs => ?_⟩
  · have hput : (Storage.write (m := StateM Shelf) path written).run s =
        (.ok (), { s.note .write path with texts := s.texts.put path written }) := by
      have hopen : (s.note .write path).readOnly.contains path = false := by
        rw [note, hs]
        rfl
      rw [run_write, put, hopen]
      rfl
    rw [hput]
    exact ⟨rfl, hs, text_put (s.note .write path) path written⟩
  · refine ⟨fun found hfound => ?_, hs, rfl⟩
    change s.find path = .ok found at hfound
    rw [find] at hfound
    split at hfound
    · next hf => exact Table.contains_iff_mem_names.mpr (Table.mem_names_of_find? hf)
    · cases hfound

open Job (Gives)
open Storage (text Keeping)

variable {S : Type} [Storage (StateM S)] {good : S → Prop} {s : S}

/-- From a good state, the texts that are read are those of that state, whatever their order. -/
theorem Description.sources_of_steady (hsteady : Storage.Steady good) (d : Description)
    (hs : good s) :
    let outcome := d.sources.run s
    outcome.1 =
        { seed := d.seed.map (text s), roles := d.roles.map fun r => (r, text s r.template) } ∧
      good outcome.2 ∧ text outcome.2 = text s := by
  have hroles : ∀ (roles : List Role) (t : S), good t →
      let outcome := (roles.mapM fun r => do return (r, ← Storage.read r.template) :
        StateM S (List (Role × Answer))).run t
      outcome.1 = roles.map (fun r => (r, text t r.template)) ∧ good outcome.2 ∧
        text outcome.2 = text t := by
    intro roles
    induction roles with
    | nil => exact fun t ht => ⟨rfl, ht, rfl⟩
    | cons r rest ih =>
        intro t ht
        obtain ⟨hgood, htext⟩ := hsteady t r.template ht
        obtain ⟨hrest, hlast, hsame⟩ := ih _ hgood
        rw [htext] at hrest hsame
        simp only [List.mapM_cons]
        exact ⟨congrArg (_ :: ·) hrest, hlast, hsame⟩
  rw [Description.sources]
  cases d.seed with
  | none =>
      obtain ⟨hsame, hgood, htext⟩ := hroles d.roles s hs
      exact ⟨congrArg (Sources.mk none) hsame, hgood, htext⟩
  | some path =>
      obtain ⟨hfirst, hkept⟩ := hsteady s path hs
      obtain ⟨hsame, hgood, htext⟩ := hroles d.roles _ hfirst
      rw [hkept] at hsame htext
      exact ⟨congrArg (Sources.mk (some _)) hsame, hgood, htext⟩

/-- Without a seed, a plan is built from the texts of the templates. -/
theorem Description.build_of_steady (hsteady : Storage.Steady good) (hs : good s)
    {d : Description} (hseed : d.seed = none) :
    (d.build.on s).1 = d.planOf
      { seed := none, roles := d.roles.map fun r => (r, text s r.template) } := by
  obtain ⟨hsources, -, -⟩ := sources_of_steady hsteady d hs
  rw [(d.gives_build s).on_fst, hsources, hseed, Option.map_none]

variable (hkeeping : Keeping good)
include hkeeping

/-! ## Single requests -/

namespace Storage.Keeping

theorem gives_read (hs : good s) {path found : String} (h : text s path = .ok found) :
    ∃ t, Gives (Job.read path) s (.ok found) t ∧ good t ∧ text t = text s := by
  have hread := Job.gives_read path s
  rw [show ((Storage.read (m := StateM S) path).run s).1 = .ok found from h] at hread
  exact ⟨_, hread, hkeeping.read s path hs⟩

theorem gives_holds (hs : good s) {path found : String} (h : text s path = .ok found) :
    ∃ t, Gives (Job.holds path) s (.ok true) t ∧ good t ∧ text t = text s := by
  obtain ⟨hanswer, hgood, htext⟩ := hkeeping.holds s path hs
  have hholds := Job.gives_holds path s
  rw [hanswer found h] at hholds
  exact ⟨_, hholds, hgood, htext⟩

theorem gives_write (hs : good s) (path written : String) :
    ∃ t, Gives (Job.write path written) s (.ok ()) t ∧ good t ∧
      text t = Function.update (text s) path (.ok written) := by
  obtain ⟨hanswer, hgood, htext⟩ := hkeeping.write s path written hs
  have hwrite := Job.gives_write path written s
  rw [hanswer] at hwrite
  exact ⟨_, hwrite, hgood, htext⟩

end Storage.Keeping

/-! ## Plans -/

namespace Description

variable (d : Description)

theorem sources_eq (hs : good s) :
    let outcome := d.sources.run s
    outcome.1 =
        { seed := d.seed.map (text s), roles := d.roles.map fun r => (r, text s r.template) } ∧
      good outcome.2 ∧ text outcome.2 = text s := sources_of_steady hkeeping.read d hs

def summaryOf (p : Plan) : Summary where
  roles := p.roleNamespaces.length
  parameters := p.template.parameters.size
  resources := p.template.resources.size
  outputs := p.template.outputs.size
  registryEntries := p.environment.registry.size
  templatePath := d.output.templatePath
  environmentPath := d.output.environmentPath

def storedTexts (p : Plan) (texts : String → Answer) : String → Answer :=
  Function.update (Function.update texts d.output.templatePath (.ok p.compose.1))
    d.output.environmentPath (.ok p.compose.2)

theorem gives_store (p : Plan) (hs : good s) :
    ∃ t, Gives (d.store p) s (.ok (d.summaryOf p)) t ∧ good t ∧
      text t = d.storedTexts p (text s) := by
  obtain ⟨s₁, htemplate, hs₁, htext₁⟩ :=
    hkeeping.gives_write hs d.output.templatePath p.compose.1
  obtain ⟨s₂, henvironment, hs₂, htext₂⟩ :=
    hkeeping.gives_write hs₁ d.output.environmentPath p.compose.2
  refine ⟨s₂, ?_, hs₂, by rw [htext₂, htext₁, storedTexts]⟩
  exact htemplate.bind_of_ok (henvironment.bind_of_ok (Job.gives_pure _ _))

/-- The plan that is loaded is the one that the two texts describe. -/
theorem gives_load_of_texts (hs : good s) {template environment : String}
    (htemplate : text s d.output.templatePath = .ok template)
    (henvironment : text s d.output.environmentPath = .ok environment) :
    ∃ t, Gives d.load s
        (Template.parse template >>= fun template => Environment.parse environment >>=
          fun environment => .ok { template, environment, scaling := d.scalingEnabled }) t ∧
      good t ∧ text t = text s := by
  obtain ⟨s₁, hholds, hs₁, htext₁⟩ := hkeeping.gives_holds hs htemplate
  obtain ⟨s₂, hread, hs₂, htext₂⟩ := hkeeping.gives_read hs₁ (htext₁ ▸ htemplate)
  rw [htext₁] at htext₂
  obtain ⟨s₃, hread', hs₃, htext₃⟩ := hkeeping.gives_read hs₂ (htext₂ ▸ henvironment)
  rw [htext₂] at htext₃
  refine ⟨s₃, hholds.bind_of_ok (hread.bind_of_ok (hread'.bind_of_ok ?_)), hs₃, htext₃⟩
  exact (Job.gives_templateOf template s₃).bind fun _ _ =>
    (Job.gives_environmentOf environment s₃).bind fun _ _ => Job.gives_pure _ s₃

/-- A plan that was stored is loaded with its inline resources expanded. -/
theorem gives_load {p : Plan} (hp : p.Portable) (hback : p.GivenBack)
    (hpaths : d.output.templatePath ≠ d.output.environmentPath) (hs : good s)
    {texts : String → Answer} (hstored : text s = d.storedTexts p texts) :
    ∃ t, Gives d.load s (.ok { p.expand with scaling := d.scalingEnabled }) t ∧ good t ∧
      text t = text s := by
  have htemplate : text s d.output.templatePath = .ok p.compose.1 := by
    rw [hstored, storedTexts, Function.update_of_ne hpaths, Function.update_self]
  have henvironment : text s d.output.environmentPath = .ok p.compose.2 := by
    rw [hstored, storedTexts, Function.update_self]
  have hload := gives_load_of_texts hkeeping d hs htemplate henvironment
  rw [Plan.compose, Template.parse_compose hp.template.wellFormed hp.template.storable hback.1,
    Environment.parse_compose hp.environment hback.2] at hload
  exact hload

end Description

end RolePlan
