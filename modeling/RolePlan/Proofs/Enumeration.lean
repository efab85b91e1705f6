import Mathlib.Data.List.Forall2
import Mathlib.Data.List.Nodup
import Mathlib.Data.List.Perm.Basic
import RolePlan.Proofs.Edit
import RolePlan.Proofs.Sources

/-!
# Maps without an order

Values are set from maps that may be gone through in any order, and what a seed fixes for a role is
found through such maps. A plan comes out the same whatever the orders are. Where none comes out,
the errors are the same as well, but for the name of the parameter that is missed first.
-/

namespace RolePlan

/-- The same error, but for the name of a parameter that is missing. -/
inductive Error.Alike : Error → Error → Prop where
  | refl (e : Error) : Alike e e
  | missing (name other : String) :
      Alike (.notFound .environmentParameter name) (.notFound .environmentParameter other)

namespace Proofs

variable {α β : Type}

/-- The same result, or errors that are alike. -/
inductive Agree : Except Error α → Except Error α → Prop where
  | ok (a : α) : Agree (.ok a) (.ok a)
  | error {e f : Error} (h : e.Alike f) : Agree (.error e) (.error f)

namespace Agree

variable {x y z : Except Error α}

theorem refl (x : Except Error α) : Agree x x := by
  cases x with
  | error e => exact .error (.refl e)
  | ok a => exact .ok a

theorem symm (h : Agree x y) : Agree y x := by
  cases h with
  | ok a => exact .ok a
  | error h =>
      cases h with
      | refl => exact .error (.refl _)
      | missing name other => exact .error (.missing other name)

theorem trans (hxy : Agree x y) (hyz : Agree y z) : Agree x z := by
  cases hxy with
  | ok a => exact hyz
  | error h =>
      cases hyz with
      | error h' =>
          cases h with
          | refl => exact .error h'
          | missing name other =>
              cases h' with
              | refl => exact .error (.missing name other)
              | missing _ last => exact .error (.missing name last)

theorem bind {f g : α → Except Error β} (h : Agree x y) (hnext : ∀ a, Agree (f a) (g a)) :
    Agree (x >>= f) (y >>= g) := by
  cases h with
  | ok a => exact hnext a
  | error h => exact .error h

theorem eq_ok_iff (h : Agree x y) (a : α) : x = .ok a ↔ y = .ok a := by
  cases h with
  | ok b => exact .rfl
  | error h => simp

end Agree

end Proofs

namespace Description

open Proofs (Agree)

/-! ## Values that are set -/

section Values

variable {p : Plan} {entry other : String × Value}

theorem names_withValue {name : String} (h : name ∈ p.environment.parameters.names)
    (value : Value) :
    (p.withValue name value).environment.parameters.names = p.environment.parameters.names :=
  Table.names_put_of_mem h value

theorem setValues_cons (entry : String × Value) (rest : List (String × Value)) (p : Plan) :
    setValues (entry :: rest) p = p.setValue entry.1 entry.2 >>= setValues rest := rfl

theorem setValues_cons_of_mem (h : entry.1 ∈ p.environment.parameters.names)
    (rest : List (String × Value)) :
    setValues (entry :: rest) p = setValues rest (p.withValue entry.1 entry.2) := by
  rw [setValues_cons, Plan.setValue, Environment.setParameter,
    if_pos (Table.contains_iff_mem_names.mpr h)]
  rfl

theorem setValues_cons_of_not_mem (h : entry.1 ∉ p.environment.parameters.names)
    (rest : List (String × Value)) :
    setValues (entry :: rest) p = .error (.notFound .environmentParameter entry.1) := by
  rw [setValues_cons, Plan.setValue, Environment.setParameter,
    if_neg (mt Table.contains_iff_mem_names.mp h)]
  rfl

/-- The values of two parameters are set in either order. Where both are missing, the first one is
missed. -/
theorem agree_setValues_swap (hne : entry.1 ≠ other.1) (rest : List (String × Value)) (p : Plan) :
    Agree (setValues (entry :: other :: rest) p) (setValues (other :: entry :: rest) p) := by
  by_cases he : entry.1 ∈ p.environment.parameters.names
  · have hother : other.1 ∈ (p.withValue entry.1 entry.2).environment.parameters.names ↔
        other.1 ∈ p.environment.parameters.names := by rw [names_withValue he]
    rw [setValues_cons_of_mem he]
    by_cases ho : other.1 ∈ p.environment.parameters.names
    · have hentry : entry.1 ∈ (p.withValue other.1 other.2).environment.parameters.names := by
        rwa [names_withValue ho]
      have hcomm : (p.withValue entry.1 entry.2).withValue other.1 other.2 =
          (p.withValue other.1 other.2).withValue entry.1 entry.2 := by
        simp only [Plan.withValue, Table.put_comm hne he ho]
      rw [setValues_cons_of_mem (hother.mpr ho), setValues_cons_of_mem ho,
        setValues_cons_of_mem hentry, hcomm]
      exact .refl _
    · rw [setValues_cons_of_not_mem (mt hother.mp ho), setValues_cons_of_not_mem ho]
      exact .refl _
  · rw [setValues_cons_of_not_mem he]
    by_cases ho : other.1 ∈ p.environment.parameters.names
    · have hentry : entry.1 ∉ (p.withValue other.1 other.2).environment.parameters.names := by
        rwa [names_withValue ho]
      rw [setValues_cons_of_mem ho, setValues_cons_of_not_mem hentry]
      exact .refl _
    · rw [setValues_cons_of_not_mem ho]
      exact .error (.missing entry.1 other.1)

end Values

/-- Values for different names can be set in any order. -/
theorem agree_setValues {values others : List (String × Value)} (h : values.Perm others)
    (hnodup : (values.map (·.1)).Nodup) (p : Plan) :
    Agree (setValues values p) (setValues others p) := by
  induction h generalizing p with
  | nil => exact .refl _
  | cons entry _ ih =>
      rw [setValues_cons, setValues_cons]
      exact (Agree.refl _).bind fun q => ih (List.nodup_cons.mp hnodup).2 q
  | swap entry other rest =>
      refine agree_setValues_swap (fun hsame => ?_) rest p
      exact (List.nodup_cons.mp hnodup).1 (by simp [hsame])
  | trans h₁ _ ih₁ ih₂ => exact (ih₁ hnodup p).trans (ih₂ ((h₁.map _).nodup_iff.mp hnodup) p)

end Description

/-! ## What is found through hash maps -/

/-- The orders in which hash maps are gone through where a plan is composed. Each map may have an
order of its own. -/
structure Enumeration where
  /-- The index of the resources of a seed, which is made to look up a role. -/
  index (role : String) : Table (List (String × Resource)) → Table (List (String × Resource))
  /-- The properties of the member that a resource defines. -/
  properties (id : String) : Table Value → Table Value
  /-- The values that a seed fixes for a role. -/
  overrides (role : String) : Table Value → Table Value
  /-- The names of the parameters that the roles of a seed look up. -/
  names : List String → List String

namespace Enumeration

/-- An order neither loses an entry nor makes one up. -/
structure Lawful (o : Enumeration) : Prop where
  index : ∀ role t, (o.index role t).entries.Perm t.entries
  properties : ∀ id t, (o.properties id t).entries.Perm t.entries
  overrides : ∀ role t, (o.overrides role t).entries.Perm t.entries
  names : ∀ names name, name ∈ o.names names ↔ name ∈ names

def asGiven : Enumeration := ⟨fun _ t => t, fun _ t => t, fun _ t => t, fun names => names⟩

theorem lawful_asGiven : asGiven.Lawful :=
  ⟨fun _ _ => .refl _, fun _ _ => .refl _, fun _ _ => .refl _, fun _ _ => .rfl⟩

end Enumeration

namespace Seed

variable (o : Enumeration)

def addToIndex (t : Table (List (String × Resource))) (entry : String × Resource) :
    Table (List (String × Resource)) :=
  t.put (Text.lowercase entry.1) ((t.find? (Text.lowercase entry.1)).getD [] ++ [entry])

/-- The resources of a seed under their ids in lowercase. -/
def index (seed : Template) : Table (List (String × Resource)) :=
  seed.resources.entries.foldl addToIndex .empty

def fixedPropertiesIn (seed : Template) (role : String) : Except Error (Option (Table Value)) :=
  match ((o.index role (index seed)).find? (Text.lowercase role)).getD [] with
  | [] => .ok none
  | [(id, resource)] =>
      .ok (some (o.overrides role
        ⟨(o.properties id resource.memberProperties).entries.filter (·.2.lookedUp?.isNone)⟩))
  | several => .error (.ambiguous role (several.map (·.1)))

def roleLookupsIn (entry : String × Resource) : List String :=
  (entry.2.properties.entries.filterMap fun property =>
    (Resource.plain? property.2).bind Value.lookedUp?) ++
  (o.properties entry.1 entry.2.memberProperties).entries.filterMap fun property =>
    property.2.lookedUp?

def roleParametersIn (seed : Template) : List String :=
  o.names ((roles seed).flatMap (roleLookupsIn o))

/-- The same error, or tables in which the same is found under every name. -/
inductive FixesAlike : Except Error (Option (Table Value)) →
    Except Error (Option (Table Value)) → Prop where
  | error (e : Error) : FixesAlike (.error e) (.error e)
  | ok {fixed other : Option (Table Value)}
      (h : ∀ name, (fixed.getD .empty).find? name = (other.getD .empty).find? name) :
      FixesAlike (.ok fixed) (.ok other)

theorem index_spec (seed : Template) :
    (index seed).Distinct ∧
      ∀ role, ((index seed).find? (Text.lowercase role)).getD [] = candidates seed role := by
  suffices hgo : ∀ (entries : List (String × Resource)) (t : Table (List (String × Resource))),
      t.Distinct → (entries.foldl addToIndex t).Distinct ∧
        ∀ key, ((entries.foldl addToIndex t).find? key).getD [] =
          (t.find? key).getD [] ++ entries.filter fun entry => Text.lowercase entry.1 == key from
    (hgo seed.resources.entries .empty List.nodup_nil).imp_right fun h role => h _
  intro entries
  induction entries with
  | nil => exact fun t ht => ⟨ht, fun key => (List.append_nil _).symm⟩
  | cons entry rest ih =>
      intro t ht
      obtain ⟨hdistinct, hfind⟩ := ih (addToIndex t entry) (ht.put _ _)
      refine ⟨hdistinct, fun key => ?_⟩
      rw [List.foldl_cons, hfind, addToIndex, Table.find?_put, List.filter_cons]
      by_cases hkey : key = Text.lowercase entry.1
      · rw [if_pos hkey, if_pos (beq_iff_eq.mpr hkey.symm), hkey, Option.getD_some,
          List.append_assoc, List.singleton_append]
      · rw [if_neg hkey, if_neg (by simpa using fun h => hkey h.symm)]

variable {o}

theorem candidates_in (ho : o.Lawful) (seed : Template) (role : String) :
    ((o.index role (index seed)).find? (Text.lowercase role)).getD [] = candidates seed role := by
  obtain ⟨hdistinct, hfind⟩ := index_spec seed
  rw [Table.find?_eq_of_perm hdistinct (ho.index role _), hfind]

theorem distinct_memberProperties {seed : Template} (hseed : seed.Loaded)
    {entry : String × Resource} (he : entry ∈ seed.resources.entries) :
    entry.2.memberProperties.Distinct := by
  rcases Resource.memberProperties_of_isPlain (hseed.plain entry he) with
    hnone | ⟨fields, hdefinition, hproperties⟩
  · rw [hnone]
    exact List.nodup_nil
  · have hfields := (hseed.wellFormed.ofResources entry he).properties _ hdefinition
    have hobject := (Value.wellFormed_object_iff.mp hfields).2 _ hproperties
    exact (Value.wellFormed_object_iff.mp hobject).1

/-- What a seed fixes for a role does not depend on the orders of hash maps. -/
theorem fixesAlike_in (ho : o.Lawful) {seed : Template} (hseed : seed.Loaded) (role : String) :
    FixesAlike (fixedPropertiesIn o seed role) (fixedProperties? seed role) := by
  rw [fixedPropertiesIn, candidates_in ho, fixedProperties?]
  match hcandidates : candidates seed role with
  | [] => exact .ok fun name => rfl
  | first :: second :: rest => exact .error _
  | [entry] =>
      have hentry : entry ∈ candidates seed role := hcandidates ▸ List.mem_singleton_self _
      have hdistinct := distinct_memberProperties hseed (List.mem_filter.mp hentry).1
      have hfiltered : (⟨entry.2.memberProperties.entries.filter (·.2.lookedUp?.isNone)⟩ :
          Table Value).Distinct := hdistinct.sublist (List.filter_sublist.map _)
      refine .ok fun name => Table.find?_eq_of_perm hfiltered ?_ name
      exact (ho.overrides role _).trans ((ho.properties entry.1 _).filter _)

theorem mem_roleParametersIn_iff (ho : o.Lawful) (seed : Template) (name : String) :
    name ∈ roleParametersIn o seed ↔ name ∈ roleParameters seed := by
  rw [roleParametersIn, ho.names, roleParameters, List.mem_flatMap, List.mem_flatMap]
  refine exists_congr fun entry => and_congr_right fun _ => ?_
  rw [roleLookupsIn, Resource.roleLookups, List.mem_append, List.mem_append]
  exact or_congr_right ((ho.properties entry.1 _).filterMap _).mem_iff

end Seed

namespace Plan

variable {overrides others : Table Value}

/-- Of the overrides for a role, only what is found under a name matters. -/
theorem addRole_congr (h : ∀ name, overrides.find? name = others.find? name) (p : Plan)
    (ns : String) (role : Template) (filename : String) :
    p.addRole ns role filename overrides = p.addRole ns role filename others := by
  have hcontains : ∀ name, overrides.contains name = others.contains name := by
    intro name
    rw [Bool.eq_iff_iff, Table.contains_iff_mem_names, Table.contains_iff_mem_names, ← not_iff_not,
      ← Table.find?_eq_none_iff, ← Table.find?_eq_none_iff, h]
  have hargument : argument ns overrides = argument ns others :=
    funext fun name => by rw [argument, argument, h]
  have hparameter : Change.mergeParameter ns overrides = Change.mergeParameter ns others :=
    funext fun entry => by rw [Change.mergeParameter, Change.mergeParameter, hcontains]
  have hentry : ∀ before : Plan,
      before.roleEntry ns role overrides = before.roleEntry ns role others := by
    intro before
    simp only [roleEntry, roleResource, hargument]
  have hclash : ∀ before : Plan,
      before.countClashes role overrides = before.countClashes role others := by
    intro before
    rw [countClashes, countClashes, hcontains]
  have hmerge : Change.mergeRole ns role filename overrides =
      Change.mergeRole ns role filename others := by
    simp only [Change.mergeRole, Change.mergeParts, hclash, hparameter, hentry]
  rw [addRole, addRole, hmerge]

end Plan

namespace Description

open Proofs (Agree)

variable (o : Enumeration)

def fixedForIn (seed : Option Template) (r : Role) : Except Error (Option (Table Value)) :=
  match seed with
  | none => .ok none
  | some seed => Seed.fixedPropertiesIn o seed r.name

def addSourceIn (seed : Option Template) (p : Plan) (source : Role × Answer) :
    Except Error Plan := do
  let template ← source.2.template
  let fixed ← fixedForIn o seed source.1
  source.1.addTo template fixed p

def injectIn (seed : Template) (p : Plan) : Except Error Plan := do
  let template ← Seed.addResources seed p.template
  let (template, environment) ← seed.parameters.entries.foldlM
    (Seed.addParameter (Seed.roleParametersIn o seed)) (template, p.environment)
  let template ← Seed.addOutputs seed template
  return { p with template, environment }

def surroundIn (seed : Option Template) (roles : List Role) (p : Plan) : Except Error Plan :=
  match seed with
  | none => .ok p
  | some seed => do return roles.foldl (fun p r => r.connect seed p) (← injectIn o seed p)

/-- The plan that is built from sources, when hash maps are gone through in these orders. -/
def planIn (d : Description) (src : Sources) : Except Error Plan := do
  let seed ← src.parsedSeed
  let p ← src.roles.foldlM (addSourceIn o seed) d.emptyPlan
  let p ← surroundIn o seed d.roles p
  setValues d.values p

variable {o}

theorem addSourceIn_eq (ho : o.Lawful) {seed : Option Template} (hseed : ∀ t ∈ seed, t.Loaded) :
    addSourceIn o seed = addSource seed := by
  funext p source
  have hfixed : Seed.FixesAlike (fixedForIn o seed source.1) (fixedFor seed source.1) := by
    cases seed with
    | none => exact .ok fun _ => rfl
    | some t => exact Seed.fixesAlike_in ho (hseed t rfl) _
  rw [addSourceIn, addSource]
  refine congrArg _ (funext fun template => ?_)
  generalize fixedForIn o seed source.1 = given at hfixed
  generalize fixedFor seed source.1 = other at hfixed
  cases hfixed with
  | error e => rfl
  | ok h =>
      change source.1.addTo template _ p = source.1.addTo template _ p
      rw [Role.addTo, Role.addTo, Plan.addRole_congr h]

theorem injectIn_eq (ho : o.Lawful) (seed : Template) : injectIn o seed = inject seed := by
  have hadd : Seed.addParameter (Seed.roleParametersIn o seed) =
      Seed.addParameter (Seed.roleParameters seed) := by
    funext target entry
    have hcontains : (Seed.roleParametersIn o seed).contains entry.1 =
        (Seed.roleParameters seed).contains entry.1 := by
      rw [Bool.eq_iff_iff, List.contains_iff_mem, List.contains_iff_mem,
        Seed.mem_roleParametersIn_iff ho]
    simp only [Seed.addParameter, hcontains]
  funext p
  simp only [injectIn, inject, Seed.addParameters, hadd]

/-- The orders in which hash maps are gone through do not matter. -/
theorem planIn_eq (ho : o.Lawful) (d : Description) (src : Sources) :
    d.planIn o src = d.planOf src := by
  rw [planIn, planOf]
  cases hseed : src.parsedSeed with
  | error e => rfl
  | ok seed =>
      have hsurround : surroundIn o seed d.roles = surround seed d.roles := by
        funext p
        cases seed with
        | none => rfl
        | some t => simp only [surroundIn, surround, injectIn_eq ho]
      change (src.roles.foldlM (addSourceIn o seed) d.emptyPlan >>= fun p =>
        surroundIn o seed d.roles p >>= setValues d.values) = _
      rw [addSourceIn_eq ho (Sources.loaded_of_parsedSeed hseed), hsurround]
      rfl

/-! ## What is set through hash maps -/

inductive Role.Reorders (r : Role) : Role → Prop where
  | intro {parameters : Option (Table Value)}
      (h : (r.parameters.getD .empty).entries.Perm (parameters.getD .empty).entries) :
      Role.Reorders r { r with parameters }

/-- The same description, with the values for its roles and for the plan in other orders. -/
inductive Reorders (d : Description) : Description → Prop where
  | intro {parameters : Option (Table Value)} {roles : List Role}
      (hvalues : d.values.Perm (parameters.getD .empty).entries)
      (hroles : List.Forall₂ Role.Reorders d.roles roles) :
      Reorders d { d with parameters, roles }

/-- The values that are set for a role are a map: no name is given twice, down to the objects in
the values themselves. -/
def Role.Maps (r : Role) : Prop := (Value.object (r.parameters.getD .empty)).WellFormed

/-- All values that a description sets are maps, as they are where it was read from a text. -/
structure Maps (d : Description) : Prop where
  values : (Value.object (d.parameters.getD .empty)).WellFormed
  ofRoles : ∀ r ∈ d.roles, r.Maps

theorem Maps.nodup_values {d : Description} (h : d.Maps) : (d.values.map (·.1)).Nodup :=
  (Value.wellFormed_object_iff.mp h.values).1

theorem Role.Maps.nodup_values {r : Role} (h : r.Maps) : (r.values.map (·.1)).Nodup := by
  have hnames : r.values.map (·.1) =
      (r.parameters.getD .empty).names.map (Namespace.apply r.ns) := by
    simp [Role.values, Table.names, Function.comp_def]
  rw [hnames]
  exact List.Nodup.map (fun _ _ => Namespace.apply_inj.mp) (Value.wellFormed_object_iff.mp h).1

theorem Role.Reorders.agree_addTo {r other : Role} (h : r.Reorders other) (hr : r.Maps)
    (template : Template) (fixed : Option (Table Value)) (p : Plan) :
    Agree (r.addTo template fixed p) (other.addTo template fixed p) := by
  obtain ⟨hperm⟩ := h
  exact (Agree.refl _).bind fun q => agree_setValues (hperm.map _) hr.nodup_values q

theorem Role.Reorders.fixedFor_eq {r other : Role} (h : r.Reorders other)
    (seed : Option Template) : fixedFor seed other = fixedFor seed r := by
  obtain ⟨-⟩ := h
  rfl

theorem surround_of_reorders {roles others : List Role}
    (h : List.Forall₂ Role.Reorders roles others) (seed : Option Template) (p : Plan) :
    surround seed others p = surround seed roles p := by
  have hconnect : ∀ (t : Template) (q : Plan),
      others.foldl (fun p r => r.connect t p) q = roles.foldl (fun p r => r.connect t p) q := by
    intro t
    induction h with
    | nil => exact fun q => rfl
    | cons hfirst _ ih =>
        obtain ⟨-⟩ := hfirst
        exact fun q => ih _
  cases seed with
  | none => rfl
  | some t => simp only [surround, hconnect]

/-- The same role with the same answer for its template, with its values in another order. -/
inductive ReordersSource : Role × Answer → Role × Answer → Prop where
  | intro {r other : Role} (answer : Answer) (h : r.Reorders other) :
      ReordersSource (r, answer) (other, answer)

theorem agree_addSources {seed : Option Template} {sources others : List (Role × Answer)}
    (h : List.Forall₂ ReordersSource sources others) (hmaps : ∀ source ∈ sources, source.1.Maps)
    (p : Plan) :
    Agree (sources.foldlM (addSource seed) p) (others.foldlM (addSource seed) p) := by
  induction h generalizing p with
  | nil => exact .refl _
  | cons hfirst _ ih =>
      obtain ⟨answer, hreorders⟩ := hfirst
      rw [List.forall_mem_cons] at hmaps
      rw [List.foldlM_cons, List.foldlM_cons]
      refine Agree.bind ?_ fun q => ih hmaps.2 q
      rw [addSource, addSource, hreorders.fixedFor_eq]
      exact (Agree.refl _).bind fun template => (Agree.refl _).bind fun fixed =>
        hreorders.agree_addTo hmaps.1 template fixed p

theorem agree_planOf {d e : Description} (hd : d.Maps) (h : d.Reorders e) {src other : Sources}
    (hsources : src.roles.map (·.1) = d.roles) (hseed : other.seed = src.seed)
    (hroles : List.Forall₂ ReordersSource src.roles other.roles) :
    Agree (d.planOf src) (e.planOf other) := by
  obtain ⟨hvalues, hreorders⟩ := h
  have hmaps : ∀ source ∈ src.roles, source.1.Maps :=
    fun source hm => hd.ofRoles source.1 (hsources ▸ List.mem_map_of_mem hm)
  rw [planOf, planOf, Sources.parsedSeed, Sources.parsedSeed, hseed]
  refine (Agree.refl _).bind fun seed => (agree_addSources hroles hmaps _).bind fun p => ?_
  rw [surround_of_reorders hreorders]
  exact (Agree.refl _).bind fun q => agree_setValues hvalues hd.nodup_values q

section Builds

variable {S : Type} [Storage (StateM S)]

theorem reorders_sources {d e : Description} (h : d.Reorders e) (s : S) :
    (e.sources.run s).1.seed = (d.sources.run s).1.seed ∧
      List.Forall₂ ReordersSource (d.sources.run s).1.roles (e.sources.run s).1.roles := by
  obtain ⟨-, hreorders⟩ := h
  refine ⟨rfl, ?_⟩
  suffices hgo : ∀ {roles others : List Role}, List.Forall₂ Role.Reorders roles others → ∀ t : S,
      let read (roles : List Role) : StateM S (List (Role × Answer)) :=
        roles.mapM fun r => do return (r, ← Storage.read r.template)
      List.Forall₂ ReordersSource ((read roles).run t).1 ((read others).run t).1 from
    hgo hreorders ((d.seed.mapM (Storage.read (m := StateM S))).run s).2
  intro roles others hroles
  induction hroles with
  | nil => exact fun t => .nil
  | cons hfirst _ ih =>
      intro t
      simp only [List.mapM_cons]
      obtain ⟨hperm⟩ := hfirst
      exact .cons (.intro _ (.intro hperm)) (ih _)

/-- A result that building can give, depending on the orders in which hash maps are gone
through: those of the values that are set, and those of the maps that are made on the way. -/
inductive Outcome (d : Description) (s : S) : Except Error Plan → Prop where
  | intro {e : Description} {o : Enumeration} (he : d.Reorders e) (ho : o.Lawful) :
      Outcome d s (e.planIn o (e.sources.run s).1)

theorem Reorders.refl (d : Description) : d.Reorders d :=
  .intro (.refl _) (List.forall₂_same.mpr fun _ _ => .intro (.refl _))

/-- The plan that is built is one of the results, in whatever order the values are given. -/
theorem Reorders.outcome_build {d e : Description} (h : d.Reorders e) (s : S) :
    d.Outcome s (e.build.on s).1 := by
  rw [(e.gives_build s).on_fst, ← planIn_eq Enumeration.lawful_asGiven]
  exact .intro h Enumeration.lawful_asGiven

/-- All results are the one that is built. -/
theorem Outcome.agree_build {d : Description} (hd : d.Maps) {s : S} {result : Except Error Plan}
    (h : d.Outcome s result) : Agree result (d.build.on s).1 := by
  obtain ⟨he, ho⟩ := h
  obtain ⟨hseed, hroles⟩ := reorders_sources he s
  rw [(d.gives_build s).on_fst, planIn_eq ho]
  exact (agree_planOf hd he (map_fst_roles_sources d s) hseed hroles).symm

theorem Outcome.agree {d : Description} (hd : d.Maps) {s : S} {x y : Except Error Plan}
    (hx : d.Outcome s x) (hy : d.Outcome s y) : Agree x y :=
  (hx.agree_build hd).trans (hy.agree_build hd).symm

end Builds

end Description

end RolePlan
