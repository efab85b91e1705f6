import RolePlan.Proofs.Lookup
import RolePlan.Proofs.Rewriting

/-!
# Which look-ups are resolved

A plan that is built around a seed looks up parameters that it has, with two exceptions. Parameters
that a role of the seed looks up are not copied, so that top-level parts of the seed that share them
look up nothing. And a look-up of a name that a role bears is taken for a reference to the role.
-/

namespace RolePlan

namespace Plan

/-! ## Roles -/

/-- The member of a role looks up what its arguments do. -/
theorem mem_lookups_roleResource {ns : String} {role : Template} {overrides : Table Value}
    {name : String} (h : name ∈ Value.lookupsEntries
      (role.parameters.names.map fun q => (q, argument ns overrides q))) :
    (∃ q ∈ role.parameters.names, q ∉ overrides.names ∧ name = Namespace.apply ns q) ∨
      name ∈ (Value.object overrides).lookups := by
  obtain ⟨entry, he, hentry⟩ := Value.mem_lookupsEntries_iff.mp h
  obtain ⟨q, hq, rfl⟩ := List.mem_map.mp he
  dsimp only [argument] at hentry
  cases hfind : overrides.find? q with
  | some v =>
      rw [hfind, Option.getD_some] at hentry
      exact .inr (Value.mem_lookupsEntries_iff.mpr ⟨(q, v), Table.mem_of_find? hfind, hentry⟩)
  | none =>
      rw [hfind, Option.getD_none, Value.lookups_lookup, List.mem_singleton] at hentry
      refine .inl ⟨q, hq, Table.find?_eq_none_iff.mp hfind, hentry.resolve_left ?_⟩
      rintro ⟨-, htarget⟩
      cases htarget

theorem lookups_toValue_roleResource (ns : String) (role : Template) (overrides : Table Value) :
    (roleResource ns role overrides).toValue.lookups = Value.lookupsEntries
      (role.parameters.names.map fun q => (q, argument ns overrides q)) := by
  have hproperties : (roleResource ns role overrides).properties.map Resource.propertyValue =
      ⟨role.parameters.names.map fun q => (q, argument ns overrides q)⟩ := by
    simp [roleResource, Table.map, Resource.propertyValue]
  rw [Resource.toValue_eq, hproperties]
  by_cases hnone : role.parameters.names = []
  · simp [roleResource, hnone, mappingField, optionalField, Table.isEmpty, Value.lookups,
      Value.lookupsEntries]
  · simp [roleResource, hnone, mappingField, optionalField, Table.isEmpty, Value.lookups,
      Value.lookupsEntries]

theorem lookups_roleResource_subset (ns : String) (role : Template) (overrides : Table Value) :
    (roleResource ns role overrides).lookups ⊆ Value.lookupsEntries
      (role.parameters.names.map fun q => (q, argument ns overrides q)) := by
  intro name h
  obtain ⟨entry, he, hname⟩ := List.mem_flatMap.mp h
  obtain ⟨q, hq, rfl⟩ := List.mem_map.mp he
  exact Value.mem_lookupsEntries_iff.mpr ⟨_, List.mem_map_of_mem hq, .inr hname⟩

/-- A role looks up what it declares itself, or what the values that were fixed for it do. -/
theorem Addition.mem_lookups {a : Addition} {name : String} (h : name ∈ a.resource.lookups) :
    (∃ q, a.Offers q ∧ name = Namespace.apply a.ns q) ∨
      name ∈ (Value.object a.overrides).lookups := by
  have hmember (hm : name ∈ Value.lookupsEntries
      (a.role.parameters.names.map fun q => (q, argument a.ns a.overrides q))) :
      (∃ q, a.Offers q ∧ name = Namespace.apply a.ns q) ∨
        name ∈ (Value.object a.overrides).lookups := by
    refine (mem_lookups_roleResource hm).imp_left ?_
    rintro ⟨q, hq, hfree, rfl⟩
    exact ⟨q, .inl ⟨hq, hfree⟩, rfl⟩
  rw [Addition.resource, roleEntry] at h
  by_cases hs : a.scaling = true
  · rw [if_pos (show a.setting.scaling = true from hs)] at h
    rcases List.mem_append.mp h with hcount | hdefinition
    · change name ∈ (lookup (Namespace.countName a.ns)).lookups at hcount
      rw [Value.lookups_lookup, List.mem_singleton] at hcount
      exact .inl ⟨Resource.countName, .inr ⟨hs, rfl⟩, hcount⟩
    · refine hmember ?_
      rw [← lookups_toValue_roleResource]
      simpa [Resource.propertyValue] using hdefinition
  · rw [if_neg (show ¬ a.setting.scaling = true from hs)] at h
    exact hmember (lookups_roleResource_subset _ _ _ h)

theorem ConsistsOf.mem_lookups {p : Plan} {roles : List Addition} (h : p.ConsistsOf roles)
    {name : String} (hname : name ∈ p.template.lookups) :
    name ∈ p.template.parameters.names ∨
      ∃ a ∈ roles, name ∈ (Value.object a.overrides).lookups := by
  rcases Template.mem_lookups_iff.mp hname with ⟨entry, he, hin⟩ | ⟨entry, he, hin⟩
  · rw [h.resources] at he
    obtain ⟨a, ha, rfl⟩ := List.mem_map.mp he
    rcases Addition.mem_lookups hin with hown | hfixed
    · exact .inl (h.mem_parameters_iff.mpr ⟨a, ha, hown⟩)
    · exact .inr ⟨a, ha, hfixed⟩
  · rw [h.outputs, List.mem_flatMap] at he
    obtain ⟨a, ha, he⟩ := he
    obtain ⟨output, -, rfl⟩ := List.mem_map.mp he
    rw [passedOutput, Value.lookups_attributeOf] at hin
    cases hin

theorem ConsistsOf.settled {p : Plan} {roles : List Addition} (h : p.ConsistsOf roles) :
    ∀ entry ∈ p.template.resources.entries, entry.2.Settled := by
  rw [h.resources]
  intro entry he
  obtain ⟨a, -, rfl⟩ := List.mem_map.mp he
  exact a.setting.settled_roleEntry a.ns a.role a.overrides

/-- Every parameter of the roles has the delimiter in its name. -/
theorem ConsistsOf.delimiter_infix {p : Plan} {roles : List Addition} (h : p.ConsistsOf roles)
    {name : String} (hname : name ∈ p.template.parameters.names) :
    [':', ':'] <:+: name.toList := by
  obtain ⟨a, -, q, -, rfl⟩ := h.mem_parameters_iff.mp hname
  rw [Namespace.apply, String.toList_append, String.toList_append]
  exact ⟨a.ns.toList, q.toList, rfl⟩

end Plan

namespace Description

/-- The name is what a look-up of the seed has become because it names a role: the roles, one after
another, have put the id of one of them in its place. -/
def Rewritten (d : Description) (seed : Template) (name : String) : Prop :=
  ∃ old ∈ seed.lookups,
    (∃ r ∈ d.roles, r.Known seed ∧ Text.sameIgnoringCase old r.name = true) ∧
      name = d.rewritten (some seed) d.roles old ∧
      ∃ r ∈ d.roles, r.Known seed ∧ name = d.emptyPlan.roleId r.ns

/-- All that the plan looks up is its own, or comes from the seed as it is. -/
structure Accounted (d : Description) (seed : Template) (own : List String) (p : Plan) : Prop where
  scaling : p.scaling = d.scalingEnabled
  settled : ∀ entry ∈ p.template.resources.entries, entry.2.Settled
  lookups : ∀ name ∈ p.template.lookups, name ∈ own ∨ name ∈ seed.lookups

variable {d : Description} {seed : Template} {own : List String} {p q : Plan}

theorem Accounted.inject (h : d.Accounted seed own p) (hseed : seed.Loaded)
    (hq : inject seed p = .ok q) : d.Accounted seed own q := by
  obtain ⟨hscaling, ⟨t, ht, hresources⟩, houtputs⟩ := copied_of_inject hq
  obtain ⟨-, -, hcopied⟩ := Seed.copied_of_addResources ht
  rw [← hresources] at hcopied
  refine ⟨hscaling.trans h.scaling, fun entry he => ?_, fun name hname => ?_⟩
  · rcases hcopied entry he with hold | ⟨hnew, -⟩
    · exact h.settled entry hold
    · exact .inr (hseed.plain entry hnew)
  · rcases Template.mem_lookups_iff.mp hname with ⟨entry, he, hin⟩ | ⟨entry, he, hin⟩
    · rcases hcopied entry he with hold | ⟨hnew, -⟩
      · exact h.lookups name (Template.mem_lookups_iff.mpr (.inl ⟨entry, hold, hin⟩))
      · exact .inr (Template.mem_lookups_iff.mpr (.inl ⟨entry, hnew, hin⟩))
    · rcases houtputs entry he with hold | hnew
      · exact h.lookups name (Template.mem_lookups_iff.mpr (.inr ⟨entry, hold, hin⟩))
      · exact .inr (Template.mem_lookups_iff.mpr (.inr ⟨entry, hnew, hin⟩))

/-- What is looked up once the roles are connected is a look-up from before, as it was or as the
roles have rewritten it. -/
theorem Accounted.mem_lookups_connectRoles (h : d.Accounted seed own p) {roles : List Role}
    (hroles : ∀ r ∈ roles, Namespace.Simple r.ns) {name : String}
    (hname : name ∈ (roles.foldl (fun p r => r.connect seed p) p).template.lookups) :
    ∃ old ∈ p.template.lookups, name = old ∨ name = d.rewritten (some seed) roles old := by
  obtain ⟨-, houtputs⟩ := kept_connectRoles roles seed p
  rcases Template.mem_lookups_iff.mp hname with ⟨entry, he, hin⟩ | ⟨entry, he, hin⟩
  · rw [resources_connectRoles roles seed h.scaling] at he
    obtain ⟨before, hbefore, rfl⟩ := List.mem_map.mp he
    have hresource {old : String} (hold : old ∈ before.2.lookups) : old ∈ p.template.lookups :=
      Template.mem_lookups_iff.mpr (.inl ⟨before, hbefore, hold⟩)
    cases hrole : before.2.isRole with
    | true =>
        rw [rewrittenResource_of_isRole hrole] at hin
        exact ⟨name, hresource hin, .inl rfl⟩
    | false =>
        have hplain := (h.settled before hbefore).resolve_left (Bool.not_eq_true _ ▸ hrole)
        rw [rewrittenResource_of_isPlain hroles hplain hrole,
          Resource.lookups_mapTexts _ hplain] at hin
        obtain ⟨old, hold, rfl⟩ := List.mem_map.mp hin
        exact ⟨old, hresource hold, .inr rfl⟩
  · rw [houtputs] at he
    exact ⟨name, Template.mem_lookups_iff.mpr (.inr ⟨entry, he, hin⟩), .inl rfl⟩

/-- A role's name does not hold the delimiter, as its namespace does not. -/
theorem not_delimiter_infix_name {r : Role} (h : Namespace.Simple r.ns) :
    ¬ [':', ':'] <:+: r.name.toList := by
  intro hin
  refine h.1 (hin.trans ?_)
  rw [Role.ns, String.append_assoc, String.toList_append]
  exact (List.prefix_append _ _).isInfix

/-- A text with the delimiter in it names no role, so that it is never rewritten. -/
theorem rewritten_of_infix_delimiter {roles : List Role}
    (hroles : ∀ r ∈ roles, Namespace.Simple r.ns) {text : String}
    (h : [':', ':'] <:+: text.toList) : d.rewritten (some seed) roles text = text := by
  refine rewritten_eq_self_iff.mpr (List.any_eq_false.mpr fun r hr hnames => ?_)
  have hsame := Role.sameIgnoringCase_of_names hnames
  exact not_delimiter_infix_name (hroles r hr)
    ((Text.delimiter_infix_iff_of_sameIgnoringCase hsame).mp h)

/-- A look-up of the seed stays as it is, unless it names a role. -/
theorem rewritten_of_mem_lookups {old : String} (hold : old ∈ seed.lookups) :
    d.rewritten (some seed) d.roles old = old ∨
      d.Rewritten seed (d.rewritten (some seed) d.roles old) := by
  cases hnamed : named (some seed) d.roles old with
  | false => exact .inl (rewritten_eq_self_iff.mpr hnamed)
  | true =>
      obtain ⟨r, hr, hnames⟩ := List.any_eq_true.mp hnamed
      exact .inr ⟨old, hold,
        ⟨r, hr, Role.known_of_names hnames, Role.sameIgnoringCase_of_names hnames⟩, rfl,
        exists_known_of_named hnamed⟩

/-- The plan's own look-ups are never rewritten, and those of the seed only if they name a role. -/
theorem Accounted.lookups_connectRoles (h : d.Accounted seed own p)
    (hroles : ∀ r ∈ d.roles, Namespace.Simple r.ns)
    (hown : ∀ name ∈ own, [':', ':'] <:+: name.toList) :
    ∀ name ∈ (d.roles.foldl (fun p r => r.connect seed p) p).template.lookups,
      name ∈ own ∨ name ∈ seed.lookups ∨ d.Rewritten seed name := by
  intro name hname
  obtain ⟨old, hold, hbecome⟩ := h.mem_lookups_connectRoles hroles hname
  rcases h.lookups old hold with hmine | hasked
  · rw [rewritten_of_infix_delimiter hroles (hown old hmine), or_self] at hbecome
    exact .inl (hbecome ▸ hmine)
  · rcases hbecome with rfl | rfl
    · exact .inr (.inl hasked)
    · rcases rewritten_of_mem_lookups (d := d) hasked with hsame | hrewritten
      · exact .inr (.inl (hsame.symm ▸ hasked))
      · exact .inr (.inr hrewritten)

/-! ## The whole plan -/

/-- What the values that a seed fixes look up, the seed does. -/
theorem mem_lookups_of_fixedFor (hseed : seed.Loaded) {r : Role} {fixed : Option (Table Value)}
    (hfixed : fixedFor (some seed) r = .ok fixed) {name : String}
    (h : name ∈ (Value.object (fixed.getD .empty)).lookups) : name ∈ seed.lookups := by
  simp only [fixedFor, Seed.fixedProperties?] at hfixed
  split at hfixed
  · cases hfixed
    cases h
  · next id resource hone =>
      cases hfixed
      have hcandidate : (id, resource) ∈ Seed.candidates seed r.name := by simp [hone]
      have hin := (List.mem_filter.mp hcandidate).1
      have hmember : name ∈ (Value.object resource.memberProperties).lookups :=
        Value.mem_lookups_of_subset (fun _ he => (List.mem_filter.mp he).1) h
      exact Template.mem_lookups_iff.mpr (.inl ⟨_, hin,
        Resource.mem_lookups_of_memberProperties (hseed.plain _ hin) hmember⟩)
  · cases hfixed

theorem Holds.accounted {done : List (Role × Answer)} (h : d.Holds (some seed) done p)
    (hseed : seed.Loaded) : d.Accounted seed p.template.parameters.names p := by
  obtain ⟨hscaling, roles, hroles, hmem⟩ := h
  refine ⟨hscaling, hroles.settled, fun name hname => ?_⟩
  rcases hroles.mem_lookups hname with hown | ⟨a, ha, hfixed⟩
  · exact .inl hown
  · obtain ⟨source, -, hsupplies⟩ := (hmem a).mp ha
    cases hsupplies with
    | intro htemplate hfixedFor =>
        exact .inr (mem_lookups_of_fixedFor hseed hfixedFor hfixed)

/-- A plan around a seed has its own parameters and those of the seed that no role looks up. -/
theorem mem_parameters_connectRoles_iff (h : inject seed p = .ok q) (roles : List Role)
    {name : String} :
    name ∈ (roles.foldl (fun p r => r.connect seed p) q).template.parameters.names ↔
      name ∈ p.template.parameters.names ∨
        (name ∈ seed.parameters.names ∧ name ∉ Seed.roleParameters seed) := by
  obtain ⟨target, htarget, hnames, -⟩ := exists_inject seed p
  cases htarget.symm.trans h
  rw [(kept_connectRoles roles seed q).1, hnames]

/-- If a seed looks up none but its own parameters, then the plan that is built around it looks up
none but its own, save for parameters of the seed that a role of the seed looks up as well, and for
look-ups that have been rewritten because they name a role. -/
theorem lookups_resolved {S : Type} [Storage (StateM S)] {d : Description}
    (hcheck : d.check = .ok ()) {s : S} {p : Plan} (hbuild : (d.build.on s).1 = .ok p)
    {seed : Template} (hseed : (d.sources.run s).1.parsedSeed = .ok (some seed))
    (hresolved : ∀ name ∈ seed.lookups, name ∈ seed.parameters.names) :
    ∀ name ∈ p.template.lookups, name ∈ p.template.parameters.names ∨
      (name ∈ seed.lookups ∧ name ∈ Seed.roleParameters seed) ∨ d.Rewritten seed name := by
  obtain ⟨hsimple, -⟩ := spec_of_check hcheck
  have hloaded : seed.Loaded := Sources.loaded_of_parsedSeed hseed seed rfl
  rw [(d.gives_build s).on_fst] at hbuild
  obtain ⟨p₀, p₁, hroles, hsurround, hvalues⟩ := exists_stages hseed hbuild
  obtain ⟨p₂, hinject, hconnect⟩ := Proofs.bind_eq_ok hsurround
  cases hconnect
  rw [template_of_setValues hvalues]
  have hholds := explains_addSources hcheck (some seed) (map_fst_roles_sources d s)
  rw [hroles] at hholds
  obtain ⟨-, roles, hconsists, -⟩ := id hholds.1
  have haccounted := (hholds.1.accounted hloaded).inject hloaded hinject
  intro name hname
  have hparameters : name ∈ _ ↔ _ := mem_parameters_connectRoles_iff hinject d.roles
  rcases haccounted.lookups_connectRoles hsimple (fun _ => hconsists.delimiter_infix) name hname
    with hmine | hasked | hrewritten
  · exact .inl (hparameters.mpr (.inl hmine))
  · by_cases hrole : name ∈ Seed.roleParameters seed
    · exact .inr (.inl ⟨hasked, hrole⟩)
    · exact .inl (hparameters.mpr (.inr ⟨hresolved name hasked, hrole⟩))
  · exact .inr (.inr hrewritten)

/-! ## Look-ups that are left over -/

/-- A seed with two parameters, line by line. One is looked up by a role as well as by a top-level
resource, and the other has the name of the role in another case. -/
def sharedSeedLines : List String :=
  ["parameters:",
    "  p:",
    "    type: string",
    "  A:",
    "    type: string",
    "resources:",
    "  a:",
    "    type: OS::Heat::ResourceGroup",
    "    properties:",
    "      resource_def:",
    "        type: Tuskar::a",
    "        properties:",
    "          q:",
    "            get_param: p",
    "  net:",
    "    type: T",
    "    properties:",
    "      n:",
    "        get_param: p",
    "      m:",
    "        get_param: A"]

def sharedText : String := String.ofList (Yaml.ofLines sharedSeedLines)

def sharedSeed : Template :=
  let definition : Value := .object ⟨[("type", .string "Tuskar::a"),
    ("properties", .single "q" (Plan.lookup "p"))]⟩
  { parameters := ⟨[("p", { type := "string" }), ("A", { type := "string" })]⟩
    resources := ⟨[
      ("a", {
        type := Resource.groupType
        properties := ⟨[(Resource.definitionName, .plain definition)]⟩ }),
      ("net", {
        type := "T"
        properties := ⟨[("n", .plain (Plan.lookup "p")), ("m", .plain (Plan.lookup "A"))]⟩ })]⟩ }

def sharedDescription : Description where
  name := "shared"
  scaling := some false
  seed := some "seed.yaml"
  roles := [{ name := "a", version := 1, template := "a.yaml" }]
  output := { path := "out" }

def sharedShelf : Shelf :=
  { texts := ⟨[("seed.yaml", sharedText), ("a.yaml", "")]⟩ }

def sharedPlan : Plan :=
  let p := sharedDescription.emptyPlan.withRole "a-1" {} "provider-a-1.yaml" .empty
  let net : Resource :=
    { type := "T"
      properties := ⟨[("n", .plain (Plan.lookup "p")),
        ("m", .plain (Plan.lookup "a-1-resource"))]⟩ }
  let q := p.withParameters [("A", { type := "string" })]
  { q with template := { q.template with resources := q.template.resources.extend [("net", net)] } }

theorem parse_sharedText : Template.parse sharedText = .ok sharedSeed := by
  let group : Value := .object ⟨[("type", .string Resource.groupType),
    ("properties", .single Resource.definitionName (.object ⟨[("type", .string "Tuskar::a"),
      ("properties", .single "q" (Plan.lookup "p"))]⟩))]⟩
  let net : Value := .object ⟨[("type", .string "T"),
    ("properties", .object ⟨[("n", Plan.lookup "p"), ("m", Plan.lookup "A")]⟩)]⟩
  let fields : Table Value := ⟨[
    ("parameters", .object ⟨[("p", .single "type" (.string "string")),
      ("A", .single "type" (.string "string"))]⟩),
    ("resources", .object ⟨[("a", group), ("net", net)]⟩)]⟩
  have hread : Yaml.Tree.read sharedText = .ok (Yaml.Tree.ofValue (.object fields)) := by
    refine Yaml.read_of_readsAs ?_
    rw [Yaml.readsAs, Yaml.Tree.read, Yaml.Token.scan, sharedText, String.toList_ofList]
    decide +kernel
  have hwell : (Value.object fields).WellFormed := by
    simp [fields, group, net, Value.WellFormed, Value.WellFormedEntries, Value.single, Plan.lookup]
  have hblank : Text.isBlank sharedText = false := Yaml.isBlank_ofLines (by decide)
  rw [Template.parse, Yaml.load_of_read hwell hblank hread]
  rfl

theorem build_sharedDescription :
    (sharedDescription.sources.run sharedShelf).1.parsedSeed = .ok (some sharedSeed) ∧
      (sharedDescription.build.on sharedShelf).1 = .ok sharedPlan := by
  have hany : ∀ text : String, (sharedDescription.sources.run
      ({ texts := ⟨[("seed.yaml", text), ("a.yaml", "")]⟩ } : Shelf)).1 =
        { seed := some (.ok text)
          roles := [({ name := "a", version := 1, template := "a.yaml" }, .ok "")] } :=
    fun text => rfl
  have hsources := hany sharedText
  have hseed : (sharedDescription.sources.run sharedShelf).1.parsedSeed =
      .ok (some sharedSeed) := by
    rw [sharedShelf, hsources, Sources.parsedSeed, Option.mapM_some, Answer.template_ok,
      parse_sharedText]
    rfl
  refine ⟨hseed, ?_⟩
  rw [(sharedDescription.gives_build sharedShelf).on_fst, planOf, hseed, sharedShelf,
    hsources]
  rfl

theorem lookups_resolved_sharedDescription :
    sharedDescription.check = .ok () ∧
      (∀ name ∈ sharedSeed.lookups, name ∈ sharedSeed.parameters.names) ∧
      (∀ name ∈ sharedPlan.template.lookups, name ∈ sharedPlan.template.parameters.names ∨
        (name ∈ sharedSeed.lookups ∧ name ∈ Seed.roleParameters sharedSeed) ∨
          sharedDescription.Rewritten sharedSeed name) ∧
      sharedDescription.Rewritten sharedSeed "a-1-resource" := by
  have hcheck : sharedDescription.check = .ok () := rfl
  have hresolved : ∀ name ∈ sharedSeed.lookups, name ∈ sharedSeed.parameters.names := by
    decide
  obtain ⟨hseed, hbuild⟩ := build_sharedDescription
  have hall := lookups_resolved hcheck hbuild hseed hresolved
  have hid : "a-1-resource" ∈ sharedPlan.template.lookups := by decide
  have hundeclared : "a-1-resource" ∉ sharedPlan.template.parameters.names := by decide
  have hunasked : "a-1-resource" ∉ sharedSeed.lookups := by decide
  have hrewritten := ((hall _ hid).resolve_left hundeclared).resolve_left fun h => hunasked h.1
  exact ⟨hcheck, hresolved, hall, hrewritten⟩

/-- The seed looks up none but its own parameters; yet one of them is not copied, and the look-up of
the other has become one of the role's resource. -/
theorem dangling_sharedDescription :
    sharedDescription.check = .ok () ∧
      (sharedDescription.sources.run sharedShelf).1.parsedSeed = .ok (some sharedSeed) ∧
      (∀ name ∈ sharedSeed.lookups, name ∈ sharedSeed.parameters.names) ∧
      (sharedDescription.build.on sharedShelf).1 = .ok sharedPlan ∧
      ("p" ∈ sharedPlan.template.lookups ∧ "p" ∉ sharedPlan.template.parameters.names) ∧
      "a-1-resource" ∈ sharedPlan.template.lookups ∧
        "a-1-resource" ∉ sharedPlan.template.parameters.names := by
  obtain ⟨hseed, hbuild⟩ := build_sharedDescription
  exact ⟨rfl, hseed, by decide, hbuild, ⟨by decide, by decide⟩, by decide, by decide⟩

end Description

end RolePlan
