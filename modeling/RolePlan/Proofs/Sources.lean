import RolePlan.Proofs.Job
import RolePlan.Proofs.Parsed

/-!
# Building from sources

The plan of a description depends on a storage only by what the storage answers to the requests for
the seed and for the templates of the roles.
-/

namespace RolePlan.Description

abbrev Answer : Type := Except StorageFault String

def Answer.template (a : Answer) : Except Error Template := Job.granted a >>= Template.parse

theorem Answer.template_ok (text : String) : Answer.template (.ok text) = Template.parse text := rfl

theorem Answer.loaded_of_template {a : Answer} {t : Template} (h : a.template = .ok t) :
    t.Loaded := by
  obtain ⟨text, -, hparse⟩ := Proofs.bind_eq_ok h
  exact Template.loaded_of_parse hparse

/-- The answers that a plan is built from. -/
structure Sources where
  seed : Option Answer
  roles : List (Role × Answer)

def Sources.parsedSeed (src : Sources) : Except Error (Option Template) :=
  src.seed.mapM Answer.template

theorem Sources.loaded_of_parsedSeed {src : Sources} {seed : Option Template}
    (h : src.parsedSeed = .ok seed) : ∀ t ∈ seed, t.Loaded := by
  rw [parsedSeed] at h
  cases hseed : src.seed with
  | none =>
      rw [hseed] at h
      cases h
      simp
  | some answer =>
      rw [hseed, Option.mapM_some] at h
      cases ha : answer.template with
      | error e =>
          rw [ha] at h
          cases h
      | ok t =>
          rw [ha] at h
          cases h
          simpa using Answer.loaded_of_template ha

def fixedFor (seed : Option Template) (r : Role) : Except Error (Option (Table Value)) :=
  match seed with
  | none => .ok none
  | some seed => Seed.fixedProperties? seed r.name

def addSource (seed : Option Template) (p : Plan) (source : Role × Answer) : Except Error Plan := do
  let template ← source.2.template
  let fixed ← fixedFor seed source.1
  source.1.addTo template fixed p

/-- The plan with the top-level parts of a seed, whose names for roles have been replaced. -/
def surround (seed : Option Template) (roles : List Role) (p : Plan) : Except Error Plan :=
  match seed with
  | none => .ok p
  | some seed => do return roles.foldl (fun p r => r.connect seed p) (← inject seed p)

def setValues (values : List (String × Value)) (p : Plan) : Except Error Plan :=
  values.foldlM (fun p entry => p.setValue entry.1 entry.2) p

variable (d : Description)

def values : List (String × Value) := (d.parameters.getD .empty).entries

def planOf (src : Sources) : Except Error Plan := do
  let seed ← src.parsedSeed
  let p ← src.roles.foldlM (addSource seed) d.emptyPlan
  let p ← surround seed d.roles p
  setValues d.values p

/-- A plan is built in three stages: the roles, what surrounds them, and the values. -/
theorem exists_stages {d : Description} {src : Sources} {seed : Option Template}
    (hseed : src.parsedSeed = .ok seed) {p : Plan} (h : d.planOf src = .ok p) :
    ∃ p₀ p₁, src.roles.foldlM (addSource seed) d.emptyPlan = .ok p₀ ∧
      surround seed d.roles p₀ = .ok p₁ ∧ setValues d.values p₁ = .ok p := by
  rw [planOf, hseed] at h
  obtain ⟨_, hsome, h⟩ := Proofs.bind_eq_ok h
  cases hsome
  obtain ⟨p₀, hroles, h⟩ := Proofs.bind_eq_ok h
  obtain ⟨p₁, hsurround, hvalues⟩ := Proofs.bind_eq_ok h
  exact ⟨p₀, p₁, hroles, hsurround, hvalues⟩

variable {S : Type} [Storage (StateM S)]

def sources : StateM S Sources := do
  let seed ← d.seed.mapM Storage.read
  let roles ← d.roles.mapM fun r => do return (r, ← Storage.read r.template)
  return { seed, roles }

/-- The sources are those of the roles, in their order. -/
theorem map_fst_roles_sources (s : S) : (d.sources.run s).1.roles.map (·.1) = d.roles := by
  suffices hgo : ∀ (roles : List Role) (t : S),
      let read : StateM S (List (Role × Answer)) :=
        roles.mapM fun r => do return (r, ← Storage.read r.template)
      (read.run t).1.map (·.1) = roles from
    hgo d.roles ((d.seed.mapM (Storage.read (m := StateM S))).run s).2
  intro roles
  induction roles with
  | nil => exact fun t => rfl
  | cons r rest ih =>
      intro t
      simp only [List.mapM_cons]
      exact congrArg (r :: ·) (ih _)

open Job (Gives)

theorem gives_readTemplate (path : String) (s : S) :
    Gives (readTemplate path) s (Answer.template ((Storage.read (m := StateM S) path).run s).1)
      ((Storage.read (m := StateM S) path).run s).2 :=
  (Job.gives_read path s).bind fun text _ => Job.gives_templateOf text _

theorem gives_addRole (seed : Option Template) (p : Plan) (r : Role) (s : S) :
    Gives (addRole seed p r) s
      (addSource seed p (r, ((Storage.read (m := StateM S) r.template).run s).1))
      ((Storage.read (m := StateM S) r.template).run s).2 := by
  refine (gives_readTemplate r.template s).bind fun template _ => ?_
  cases seed with
  | none => exact (Job.gives_pure none _).bind fun fixed _ => Job.gives_ofExcept _ _
  | some seed => exact (Job.gives_ofExcept _ _).bind fun fixed _ => Job.gives_ofExcept _ _

theorem gives_addRoles (seed : Option Template) (p : Plan) (roles : List Role) (s : S) :
    let read : StateM S (List (Role × Answer)) :=
      roles.mapM fun r => do return (r, ← Storage.read r.template)
    Gives (roles.foldlM (addRole seed) p) s ((read.run s).1.foldlM (addSource seed) p)
      (read.run s).2 := by
  induction roles generalizing p s with
  | nil => exact Job.gives_pure p s
  | cons r rest ih =>
      simp only [List.mapM_cons, List.foldlM_cons]
      exact (gives_addRole seed p r s).bind fun q _ => ih q _

omit [Storage (StateM S)] in
theorem gives_connectRoles (seed : Template) (p : Plan) (roles : List Role) (s : S) :
    Gives (roles.foldlM (connectRole seed) p) s
      (.ok (roles.foldl (fun p r => r.connect seed p) p)) s := by
  induction roles generalizing p with
  | nil => exact Job.gives_pure p s
  | cons r rest ih =>
      have hfirst : Gives (connectRole seed p r) s (.ok (r.connect seed p)) s := by
        rw [connectRole]
        split
        · exact (Job.gives_warn _ s).bind fun _ _ => Job.gives_pure _ s
        · exact Job.gives_pure _ s
      rw [List.foldlM_cons, List.foldl_cons]
      exact hfirst.bind fun q _ => ih _

/-- Building a plan from a storage comes to building it from the storage's answers. -/
theorem gives_build (s : S) :
    Gives d.build s (d.planOf (d.sources.run s).1) (d.sources.run s).2 := by
  let asked := (d.seed.mapM (Storage.read (m := StateM S))).run s
  have hseed : Gives (d.seed.mapM readTemplate) s (asked.1.mapM Answer.template) asked.2 := by
    dsimp only [asked]
    cases d.seed with
    | none => exact Job.gives_pure none s
    | some path =>
        exact (gives_readTemplate path s).bind fun seed _ => Job.gives_pure (some seed) _
  refine hseed.bind fun seed _ => (gives_addRoles seed _ d.roles _).bind fun p _ => ?_
  cases seed with
  | none => exact (Job.gives_pure p _).bind fun q _ => Job.gives_ofExcept _ _
  | some seed =>
      have hsurround : (surround (some seed) d.roles p >>= setValues d.values) =
          inject seed p >>= fun q => .ok (d.roles.foldl (fun p r => r.connect seed p) q) >>=
            setValues d.values := by
        rw [surround, bind_assoc]
        rfl
      change Gives _ _ (surround (some seed) d.roles p >>= setValues d.values) _
      rw [hsurround]
      exact (Job.gives_ofExcept _ _).bind fun q _ =>
        (gives_connectRoles seed q d.roles _).bind fun q _ => Job.gives_ofExcept _ _

end RolePlan.Description
