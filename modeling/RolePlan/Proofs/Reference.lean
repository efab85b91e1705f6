import RolePlan.Proofs.Keeping
import RolePlan.Proofs.Reload
import RolePlan.Proofs.Rewriting
import RolePlan.Proofs.Wiring

/-!
# References to roles

What a plan makes of the texts in its resources that name a role. In the resources of the roles
themselves they are left alone within a group and replaced without one. In what is copied from a
seed all of them are replaced, and that at once, as long as no id of a role names another role.
-/

namespace RolePlan

open Description

/-- The properties with the arguments of a role: those of the member, if there is a group. -/
def Resource.arguments (r : Resource) : Table PropertyValue :=
  match r.properties.find? definitionName with
  | some (.nested _ member) => member.properties
  | _ => r.properties

theorem Resource.IsPlain.arguments_eq {r : Resource} (h : r.IsPlain) :
    r.arguments = r.properties := by
  rw [arguments]
  split
  · next id member hfind => cases h _ (Table.mem_of_find? hfind)
  · rfl

/-- A resource of a registered role type is no group. -/
theorem Resource.isRole_eq_false_of_alias {r : Resource} {ns : String}
    (h : r.type = Namespace.aliasOf ns) : r.isRole = false := by
  have hgroup : ∀ type ∈ groupTypes, r.type ≠ type := by
    have hfirst : r.type.toList.head? = some 'T' := by
      rw [h, Namespace.aliasOf, String.toList_append]
      rfl
    rintro type htype rfl
    revert hfirst
    simp only [groupTypes, List.mem_cons, List.not_mem_nil, or_false] at htype
    rcases htype with htype | htype <;> rw [htype] <;> decide
  have hother : groupTypes.contains r.type = false := by
    rw [← Bool.not_eq_true, List.contains_iff_mem]
    exact fun hm => hgroup r.type hm rfl
  rw [isRole, hother, Bool.false_and]

namespace Plan.Addition

variable (d : Description) (seed : Option Template) (roles : List Role) (a : Addition)

theorem resource_of_scaling (h : a.scaling = true) :
    a.resource = groupAround a.ns a.id (roleResource a.ns a.role a.overrides) :=
  if_pos h

theorem resource_of_not_scaling (h : a.scaling = false) :
    a.resource = roleResource a.ns a.role a.overrides :=
  if_neg (Bool.not_eq_true _ ▸ h)

/-- A group is never touched, and what stands by itself is taken for any other resource. -/
theorem rewrittenResource_resource : d.rewrittenResource seed roles a.resource =
    if a.scaling then a.resource else a.resource.mapTexts (d.rewritten seed roles) := by
  cases hs : a.scaling with
  | true =>
      rw [if_pos rfl]
      refine rewrittenResource_of_isRole ?_ roles
      rw [a.resource_of_scaling hs]
      exact isRole_groupAround _ _ _ _
  | false =>
      rw [if_neg Bool.false_ne_true]
      refine rewrittenResource_of_topLevel (P := fun r => r.type = Namespace.aliasOf a.ns)
        (fun r h => Resource.isRole_eq_false_of_alias h) (fun role _ r h => ?_) ?_
      · rwa [Resource.mapTexts_eq]
      · rw [a.resource_of_not_scaling hs]
        rfl

variable {a}

/-- An argument of the role is kept as the resource is, or has its texts rewritten as it has. -/
theorem find?_arguments (hrole : a.role.Distinct) {name : String}
    (hname : name ∈ a.role.parameters.names) {v : Value} (hv : a.overrides.find? name = some v) :
    (d.rewrittenResource seed roles a.resource).arguments.find? name =
      some (.plain (if a.scaling then v else v.mapTexts (d.rewritten seed roles))) := by
  have hmember :
      (roleResource a.ns a.role a.overrides).properties.find? name = some (.plain v) := by
    rw [find?_roleResource a.ns hrole a.overrides hname, argument, hv]
    rfl
  rw [rewrittenResource_resource]
  cases hs : a.scaling with
  | true =>
      rw [if_pos rfl, if_pos rfl, a.resource_of_scaling hs]
      exact hmember
  | false =>
      have hplain := (isPlain_roleResource a.ns a.role a.overrides).mapTexts
        (d.rewritten seed roles)
      rw [if_neg Bool.false_ne_true, if_neg Bool.false_ne_true, a.resource_of_not_scaling hs,
        hplain.arguments_eq, Resource.mapTexts_eq, Table.find?_map, hmember]
      rfl

end Plan.Addition

namespace Description

variable {d : Description} {seed : Option Template}

theorem rewritten_ne_eq_named (d : Description) (seed : Option Template) (roles : List Role) :
    (fun text => d.rewritten seed roles text != text) = named seed roles := by
  funext text
  rw [Bool.eq_iff_iff, bne_iff_ne, ne_eq, rewritten_eq_self_iff, Bool.not_eq_false]

/-- In a plan that is built, the resource of a role is as it was created exactly if it stands in a
group or none of its texts names a role that the seed knows; and likewise for each value that the
seed fixes for the role. -/
theorem role_resource_kept_iff {S : Type} [Storage (StateM S)] {s : S} {p : Plan}
    (hbuild : (d.build.on s).1 = .ok p)
    (hseed : (d.sources.run s).1.parsedSeed = .ok seed) {r : Role} (hr : r ∈ d.roles) :
    ∃ answer a resource, (r, answer) ∈ (d.sources.run s).1.roles ∧
      d.Supplies seed (r, answer) a ∧ p.template.resources.find? a.id = some resource ∧
      (resource = a.resource ↔
        d.scalingEnabled = true ∨ a.resource.countTexts (named seed d.roles) = 0) ∧
      ∀ name ∈ a.role.parameters.names, ∀ v, a.overrides.find? name = some v →
        ∃ w, resource.arguments.find? name = some (.plain w) ∧
          (w = v ↔ d.scalingEnabled = true ∨ v.countTexts (named seed d.roles) = 0) := by
  rw [(d.gives_build s).on_fst] at hbuild
  obtain ⟨additions, hassembles⟩ := exists_assembles hseed hbuild
  rw [← map_fst_roles_sources d s] at hr
  obtain ⟨⟨_, answer⟩, hsource, rfl⟩ := List.mem_map.mp hr
  obtain ⟨a, ha, hsupplies⟩ := hassembles.exists_supplies hsource
  refine ⟨answer, a, _, hsource, hsupplies, hassembles.find?_id ha, ?_, fun name hname v hv => ?_⟩
  all_goals cases hsupplies with | intro htemplate hfixed => ?_
  · rw [Plan.Addition.rewrittenResource_resource]
    dsimp only
    split
    · next hscaling => simp [hscaling]
    · next hscaling =>
        rw [Resource.mapTexts_eq_self_iff, rewritten_ne_eq_named, or_iff_right hscaling]
  · have hdistinct := (Answer.loaded_of_template htemplate).wellFormed.toDistinct
    refine ⟨_, Plan.Addition.find?_arguments d seed d.roles hdistinct hname hv, ?_⟩
    dsimp only
    split
    · next hscaling => simp [hscaling]
    · next hscaling =>
        rw [Value.mapTexts_eq_self_iff, rewritten_ne_eq_named, or_iff_right hscaling]

/-! ## A role with the name of another's resource -/

/-- A seed of two roles, line by line. The first is given its own name as a value; the second has
the name that the resource of the first gets in a plan without groups. -/
def linkedSeedLines : List String :=
  ["resources:",
    "  a:",
    "    type: OS::Heat::ResourceGroup",
    "    properties:",
    "      resource_def:",
    "        type: Tuskar::a",
    "        properties:",
    "          p: a",
    "  a-1-resource:",
    "    type: OS::Heat::ResourceGroup",
    "    properties:",
    "      resource_def:",
    "        type: Tuskar::b",
    "  net:",
    "    type: T",
    "    properties:",
    "      servers: a"]

def linkedText : String := String.ofList (Yaml.ofLines linkedSeedLines)

def textResource (type name text : String) : Resource :=
  { type, properties := ⟨[(name, .plain (.string text))]⟩ }

def linkedSeed : Template :=
  let group (fields : List (String × Value)) : Resource :=
    { type := Resource.groupType
      properties := ⟨[(Resource.definitionName, .plain (.object ⟨fields⟩))]⟩ }
  { resources := ⟨[
      ("a", group [("type", .string "Tuskar::a"), ("properties", .single "p" (.string "a"))]),
      ("a-1-resource", group [("type", .string "Tuskar::b")]),
      ("net", textResource "T" "servers" "a")]⟩ }

theorem parse_linkedText : Template.parse linkedText = .ok linkedSeed := by
  let group (fields : List (String × Value)) : Value :=
    .object ⟨[("type", .string Resource.groupType),
      ("properties", .single Resource.definitionName (.object ⟨fields⟩))]⟩
  let fields : Table Value := ⟨[("resources", .object ⟨[
    ("a", group [("type", .string "Tuskar::a"), ("properties", .single "p" (.string "a"))]),
    ("a-1-resource", group [("type", .string "Tuskar::b")]),
    ("net", .object ⟨[("type", .string "T"),
      ("properties", .single "servers" (.string "a"))]⟩)]⟩)]⟩
  have hread : Yaml.Tree.read linkedText = .ok (Yaml.Tree.ofValue (.object fields)) := by
    refine Yaml.read_of_readsAs ?_
    rw [Yaml.readsAs, Yaml.Tree.read, Yaml.Token.scan, linkedText, String.toList_ofList]
    decide +kernel
  have hwell : (Value.object fields).WellFormed := by
    simp [fields, group, Value.WellFormed, Value.WellFormedEntries, Value.single]
  have hblank : Text.isBlank linkedText = false := Yaml.isBlank_ofLines (by decide)
  rw [Template.parse, Yaml.load_of_read hwell hblank hread]
  rfl

def linkedDescription (scaling : Bool) (roles : List Role) : Description where
  name := "linked"
  scaling := some scaling
  seed := some "seed.yaml"
  roles
  output := { path := "out" }

def firstRole : Role := { name := "a", version := 1, template := "a.yaml" }

def linkedShelf : Shelf :=
  { texts := ⟨[("seed.yaml", linkedText), ("a.yaml", Plan.sampleText), ("b.yaml", "")]⟩ }

/-- The answers of the shelf, once they are read. -/
theorem sources_linkedDescription (scaling : Bool) (roles : List Role) :
    let src := ((linkedDescription scaling roles).sources.run linkedShelf).1
    src.parsedSeed = .ok (some linkedSeed) ∧
      src.roles = roles.map fun r => (r, Storage.text linkedShelf r.template) := by
  have hany : ∀ text : String, Storage.text ({ texts := ⟨[("seed.yaml", text),
      ("a.yaml", Plan.sampleText), ("b.yaml", "")]⟩ } : Shelf) "seed.yaml" = .ok text :=
    fun text => rfl
  have hseed : Storage.text linkedShelf "seed.yaml" = .ok linkedText := hany linkedText
  obtain ⟨hsources, -⟩ :=
    sources_eq Shelf.keeping (linkedDescription scaling roles) (s := linkedShelf) rfl
  refine ⟨?_, congrArg Sources.roles hsources⟩
  have hasked : ((linkedDescription scaling roles).sources.run linkedShelf).1.seed =
      some (Storage.text linkedShelf "seed.yaml") := congrArg Sources.seed hsources
  rw [Sources.parsedSeed, hasked, hseed, Option.mapM_some, Answer.template_ok, parse_linkedText]
  rfl

/-- The seed gives the role its own name as a value. -/
theorem fixedFor_firstRole :
    fixedFor (some linkedSeed) firstRole = .ok (some ⟨[("p", .string "a")]⟩) := rfl

theorem template_firstRole :
    Answer.template (Storage.text linkedShelf firstRole.template) = .ok Plan.sampleRole := by
  have hanswer : Storage.text linkedShelf firstRole.template = .ok Plan.sampleText := rfl
  rw [hanswer, Answer.template_ok, Plan.parse_sampleText]

theorem addSource_firstRole (p : Plan) :
    addSource (some linkedSeed) p (firstRole, Storage.text linkedShelf firstRole.template) =
      firstRole.addTo Plan.sampleRole (some ⟨[("p", .string "a")]⟩) p := by
  rw [addSource, template_firstRole]
  rfl

/-- Without groups, the first role alone: its value has become the id of its own resource. -/
def literalPlan : Plan :=
  let d := linkedDescription false [firstRole]
  let p := d.emptyPlan.withRole "a-1" Plan.sampleRole "provider-a-1.yaml"
    ⟨[("p", .string "a-1-resource")]⟩
  { p with template := { p.template with
      resources := p.template.resources.extend
        [("net", textResource "T" "servers" "a-1-resource")] } }

theorem build_linkedDescription (scaling : Bool) (roles : List Role) :
    ((linkedDescription scaling roles).build.on linkedShelf).1 = (do
      let p ← (roles.map fun r => (r, Storage.text linkedShelf r.template)).foldlM
        (addSource (some linkedSeed)) (linkedDescription scaling roles).emptyPlan
      let p ← surround (some linkedSeed) roles p
      setValues [] p) := by
  obtain ⟨hseed, hroles⟩ := sources_linkedDescription scaling roles
  rw [((linkedDescription scaling roles).gives_build linkedShelf).on_fst, planOf, hseed, hroles]
  rfl

theorem build_literalPlan :
    ((linkedDescription false [firstRole]).build.on linkedShelf).1 = .ok literalPlan := by
  rw [build_linkedDescription, List.map_singleton, List.foldlM_cons, addSource_firstRole]
  rfl

theorem role_resource_kept_iff_literalPlan :
    let d := linkedDescription false [firstRole]
    let src := (d.sources.run linkedShelf).1
    (d.build.on linkedShelf).1 = .ok literalPlan ∧ src.parsedSeed = .ok (some linkedSeed) ∧
      firstRole ∈ d.roles ∧ ∃ answer a resource, (firstRole, answer) ∈ src.roles ∧
        d.Supplies (some linkedSeed) (firstRole, answer) a ∧
        literalPlan.template.resources.find? a.id = some resource ∧
        (resource = a.resource ↔ d.scalingEnabled = true ∨
          a.resource.countTexts (named (some linkedSeed) d.roles) = 0) ∧
        ∀ name ∈ a.role.parameters.names, ∀ v, a.overrides.find? name = some v →
          ∃ w, resource.arguments.find? name = some (.plain w) ∧
            (w = v ↔ d.scalingEnabled = true ∨
              v.countTexts (named (some linkedSeed) d.roles) = 0) := by
  intro d src
  have hseed : src.parsedSeed = .ok (some linkedSeed) := (sources_linkedDescription _ _).1
  have hmem : firstRole ∈ d.roles := List.mem_cons_self
  exact ⟨build_literalPlan, hseed, hmem, role_resource_kept_iff build_literalPlan hseed hmem⟩

/-- The seed hard-codes a value for the role, and the plan has another one in its place. -/
theorem literal_lost_literalPlan :
    let d := linkedDescription false [firstRole]
    d.check = .ok () ∧ (d.build.on linkedShelf).1 = .ok literalPlan ∧
      (d.sources.run linkedShelf).1.parsedSeed = .ok (some linkedSeed) ∧
      ∃ a resource, d.Supplies (some linkedSeed)
          (firstRole, Storage.text linkedShelf firstRole.template) a ∧
        literalPlan.template.resources.find? a.id = some resource ∧ resource ≠ a.resource ∧
        a.overrides.find? "p" = some (.string "a") ∧
        resource.arguments.find? "p" = some (.plain (.string "a-1-resource")) := by
  intro d
  let a : Plan.Addition :=
    ⟨"a-1", Plan.sampleRole, "provider-a-1.yaml", ⟨[("p", .string "a")]⟩, false⟩
  have hsupplies : d.Supplies (some linkedSeed)
      (firstRole, Storage.text linkedShelf firstRole.template) a :=
    .intro template_firstRole fixedFor_firstRole
  have hresource : literalPlan.template.resources.find? a.id =
      some (textResource "Tuskar::a-1" "p" "a-1-resource") := rfl
  have hchanged : textResource "Tuskar::a-1" "p" "a-1-resource" ≠ a.resource := by
    intro h
    have hfound : some (Value.string "a-1-resource") = some (Value.string "a") :=
      congrArg (fun r : Resource => (r.arguments.find? "p").bind Resource.plain?) h
    simp at hfound
  have hcheck : (linkedDescription false [firstRole]).check = .ok () := rfl
  exact ⟨hcheck, build_literalPlan, (sources_linkedDescription _ _).1, a, _, hsupplies, hresource,
    hchanged, rfl, rfl⟩

/-! ## Replacing at once -/

section

variable {roles : List Role}

/-- A text that names a role has become the role's id once the role is connected; then it goes on
from there, since no role before this one has its name. -/
theorem rewritten_of_names (happart : roles.Pairwise fun r r' =>
      Text.sameIgnoringCase r.name r'.name = false)
    {before after : List Role} {r : Role} (hsplit : roles = before ++ r :: after) {text : String}
    (h : r.names seed text = true) :
    d.rewritten seed roles text = d.rewritten seed after (d.emptyPlan.roleId r.ns) := by
  have hbefore : named seed before text = false := by
    rw [named, List.any_eq_false]
    intro other ho hother
    have hdifferent := (List.pairwise_append.mp (hsplit ▸ happart)).2.2 other ho r
      List.mem_cons_self
    have hr := Role.sameIgnoringCase_of_names h
    have hsame := Role.sameIgnoringCase_of_names hother
    rw [Text.sameIgnoringCase, beq_iff_eq] at hr hsame
    rw [Text.sameIgnoringCase, ← hsame, hr, beq_self_eq_true] at hdifferent
    cases hdifferent
  rw [hsplit, rewritten_append, rewritten_eq_self_iff.mpr hbefore, rewritten, List.foldl_cons,
    renamed, if_pos h]
  rfl

/-- No id that a known role has in the plan names a known role. -/
def Unchained (d : Description) (seed : Option Template) (roles : List Role) : Prop :=
  ∀ r ∈ roles, (∃ text, r.names seed text = true) →
    named seed roles (d.emptyPlan.roleId r.ns) = false

theorem rewritten_perm {roles' : List Role} (hperm : roles'.Perm roles)
    (hapart : roles.Pairwise fun r r' => Text.sameIgnoringCase r.name r'.name = false)
    (hunchained : d.Unchained seed roles) : d.rewritten seed roles' = d.rewritten seed roles := by
  have hnamed : ∀ text, named seed roles' text = named seed roles text := fun text =>
    hperm.any_eq
  have hapart' : roles'.Pairwise fun r r' => Text.sameIgnoringCase r.name r'.name = false := by
    refine (hperm.pairwise_iff fun h => ?_).mpr hapart
    rwa [Text.sameIgnoringCase, BEq.comm]
  have hend : ∀ {rs : List Role}, rs.Perm roles →
      (rs.Pairwise fun r r' => Text.sameIgnoringCase r.name r'.name = false) →
      ∀ r ∈ roles, ∀ text, r.names seed text = true →
        d.rewritten seed rs text = d.emptyPlan.roleId r.ns := by
    intro rs hrs hdifferent r hr text htext
    obtain ⟨before, after, hsplit⟩ := List.append_of_mem (hrs.mem_iff.mpr hr)
    have hfree : named seed after (d.emptyPlan.roleId r.ns) = false := by
      have hall : named seed rs (d.emptyPlan.roleId r.ns) = false :=
        hrs.any_eq.trans (hunchained r hr ⟨text, htext⟩)
      rw [named, List.any_eq_false] at hall ⊢
      exact fun other ho =>
        hall other (hsplit ▸ List.mem_append_right _ (List.mem_cons_of_mem _ ho))
    rw [rewritten_of_names hdifferent hsplit htext, rewritten_eq_self_iff.mpr hfree]
  funext text
  cases hn : named seed roles text with
  | false => rw [rewritten_eq_self_iff.mpr hn, rewritten_eq_self_iff.mpr ((hnamed text).trans hn)]
  | true =>
      obtain ⟨r, hr, htext⟩ := List.any_eq_true.mp hn
      rw [hend hperm hapart' r hr text htext, hend (.refl _) hapart r hr text htext]

end

/-- The copies in a plan are those of the resources of the seed that stand for no role and whose ids
no role has taken. They follow the roles' own resources, and their texts have been rewritten. -/
theorem exists_copies {src : Sources} (hroles : src.roles.map (·.1) = d.roles)
    (hsimple : ∀ r ∈ d.roles, Namespace.Simple r.ns) {t : Template}
    (hseed : src.parsedSeed = .ok (some t)) {p : Plan} (h : d.planOf src = .ok p) :
    let ids := d.roles.map fun r => d.emptyPlan.roleId r.ns
    let copied : List (String × Resource) := (copies (some t) ids).map fun entry =>
      (entry.1, entry.2.mapTexts (d.rewritten (some t) d.roles))
    (∃ own, p.template.resources.entries = own ++ copied ∧ own.map (·.1) = ids) ∧
      ∀ entry ∈ copied, p.template.resources.find? entry.1 = some entry.2 := by
  intro ids copied
  obtain ⟨additions, hassembles⟩ := exists_assembles hseed h
  have hids : additions.map (·.id) = ids := by
    rw [hassembles.map_id_eq]
    change _ = d.roles.map _
    rw [← hroles, List.map_map]
    rfl
  have hcopied : (copies (some t) ids).map (fun entry =>
      (entry.1, d.rewrittenResource (some t) d.roles entry.2)) = copied := by
    refine List.map_congr_left fun entry he => ?_
    obtain ⟨hin, hfree⟩ := List.mem_filter.mp he
    have hplain := (Sources.loaded_of_parsedSeed hseed t rfl).plain entry hin
    rw [rewrittenResource_of_isPlain hsimple hplain (isCopied_iff.mp hfree).1]
  have hentries : p.template.resources.entries = (additions.map fun a =>
      (a.id, d.rewrittenResource (some t) d.roles a.resource)) ++ copied := by
    rw [hassembles.resources, hids, ← hcopied, Table.map, List.map_append, List.map_map]
    rfl
  refine ⟨⟨_, hentries, ?_⟩, fun entry he => Table.find?_of_mem hassembles.distinct ?_⟩
  · rw [← hids, List.map_map]
    rfl
  · rw [hentries]
    exact List.mem_append_right _ he

/-- In a plan that is built around a seed, the texts of the copied resources have gone through the
passes for the roles. A text that names no role is kept; one that names a role has become the role's
id exactly if that id names none of the later roles. If no id of a known role names a known role,
the copies do not depend on the order of the roles. -/
theorem copies_rewritten {S : Type} [Storage (StateM S)] {s : S} {p : Plan}
    (hcheck : d.check = .ok ())
    (hapart : d.roles.Pairwise fun r r' => Text.sameIgnoringCase r.name r'.name = false)
    (hbuild : (d.build.on s).1 = .ok p) {t : Template}
    (hseed : (d.sources.run s).1.parsedSeed = .ok (some t)) :
    let id (r : Role) := d.emptyPlan.roleId r.ns
    let copied := copies (some t) (d.roles.map id)
    (∃ own, p.template.resources.entries = own ++ copied.map (fun entry =>
        (entry.1, entry.2.mapTexts (d.rewritten (some t) d.roles))) ∧
      own.map (·.1) = d.roles.map id) ∧
    (∀ text, named (some t) d.roles text = false → d.rewritten (some t) d.roles text = text) ∧
    (∀ before r after text, d.roles = before ++ r :: after → r.names (some t) text = true →
      (d.rewritten (some t) d.roles text = id r ↔ named (some t) after (id r) = false)) ∧
    (d.Unchained (some t) d.roles → ∀ roles', roles'.Perm d.roles →
      let d' := { d with roles := roles' }
      ∀ (s' : S) p', (d'.build.on s').1 = .ok p' →
        (d'.sources.run s').1.parsedSeed = .ok (some t) → ∀ entry ∈ copied,
          p'.template.resources.find? entry.1 = p.template.resources.find? entry.1) := by
  intro id copied
  obtain ⟨hsimple, -⟩ := spec_of_check hcheck
  rw [(d.gives_build s).on_fst] at hbuild
  obtain ⟨hentries, hfind⟩ := exists_copies (map_fst_roles_sources d s) hsimple hseed hbuild
  refine ⟨hentries, fun text => rewritten_eq_self_iff.mpr,
    fun before r after text hsplit htext => ?_, ?_⟩
  · rw [rewritten_of_names hapart hsplit htext, rewritten_eq_self_iff]
  · intro hunchained roles' hperm d' s' p' hbuild' hseed' entry he
    rw [(d'.gives_build s').on_fst] at hbuild'
    obtain ⟨-, hfind'⟩ := exists_copies (map_fst_roles_sources d' s')
      (fun r hr => hsimple r (hperm.mem_iff.mp hr)) hseed' hbuild'
    have hrewritten : d'.rewritten (some t) d'.roles = d.rewritten (some t) d.roles :=
      rewritten_perm hperm hapart hunchained
    -- The same ids are taken, so that the same resources are copied.
    have hsame : copies (some t) (d'.roles.map id) = copied := by
      refine List.filter_congr fun other _ => ?_
      rw [Bool.eq_iff_iff, isCopied_iff, isCopied_iff, (hperm.map id).mem_iff]
    have hcopy := hfind _ (List.mem_map.mpr ⟨entry, he, rfl⟩)
    have hcopy' := hfind' _ (List.mem_map.mpr ⟨entry, hsame.symm ▸ he, rfl⟩)
    rw [hrewritten] at hcopy'
    exact hcopy'.trans hcopy.symm

def serversOf (p : Plan) : Option String :=
  ((p.template.resources.find? "net").bind (·.arguments.find? "servers")).bind fun property =>
    (Resource.plain? property).bind Value.string?

theorem exists_of_servers {x : Except Error Plan} {text : String}
    (h : x.toOption.map serversOf = some (some text)) :
    ∃ p, x = .ok p ∧ serversOf p = some text := by
  cases x with
  | error e => cases h
  | ok p => exact ⟨p, rfl, Option.some.inj h⟩

/-- Two roles without parameters. Without groups, the resource of the first has the name of the
second. -/
def chainedRoles : List Role :=
  [{ name := "a", version := 1, template := "b.yaml" },
    { name := "a-1-resource", version := 1, template := "b.yaml" }]

theorem check_chainedRoles (scaling : Bool) :
    (linkedDescription scaling chainedRoles).check = .ok () := by
  cases scaling <;> rfl

theorem apart_chainedRoles : chainedRoles.Pairwise fun r r' =>
    Text.sameIgnoringCase r.name r'.name = false := by
  decide +kernel

/-- In groups the two roles get ids that name none of them, so that their order does not count. -/
theorem copies_rewritten_chainedRoles :
    let d := linkedDescription true chainedRoles
    let d' := linkedDescription true chainedRoles.reverse
    let copied := copies (some linkedSeed) ["a-1-servers", "a-1-resource-1-servers"]
    d.check = .ok () ∧
      d.roles.Pairwise (fun r r' => Text.sameIgnoringCase r.name r'.name = false) ∧
      (d.sources.run linkedShelf).1.parsedSeed = .ok (some linkedSeed) ∧
      d.Unchained (some linkedSeed) d.roles ∧
      d.rewritten (some linkedSeed) d.roles "A" = "a-1-servers" ∧
      ∃ p, (d.build.on linkedShelf).1 = .ok p ∧ serversOf p = some "a-1-servers" ∧
        ∀ (s' : Shelf) p', (d'.build.on s').1 = .ok p' →
          (d'.sources.run s').1.parsedSeed = .ok (some linkedSeed) → ∀ entry ∈ copied,
            p'.template.resources.find? entry.1 = p.template.resources.find? entry.1 := by
  intro d d' copied
  have hbuild : (d.build.on linkedShelf).1.toOption.map serversOf = some (some "a-1-servers") := by
    rw [build_linkedDescription]
    decide +kernel
  obtain ⟨p, hp, hservers⟩ := exists_of_servers hbuild
  have hseed := (sources_linkedDescription true chainedRoles).1
  have hunchained : d.Unchained (some linkedSeed) d.roles := by
    have hall : ∀ r ∈ chainedRoles,
        named (some linkedSeed) chainedRoles (Namespace.groupId r.ns) = false := by
      decide +kernel
    exact fun r hr _ => hall r hr
  obtain ⟨-, -, hlater, horder⟩ :=
    copies_rewritten (check_chainedRoles true) apart_chainedRoles hp hseed
  have hfirst : d.rewritten (some linkedSeed) d.roles "A" = "a-1-servers" :=
    (hlater [] _ _ "A" rfl (by decide +kernel)).mpr (by decide +kernel)
  exact ⟨check_chainedRoles true, apart_chainedRoles, hseed, hunchained, hfirst, p, hp, hservers,
    horder hunchained _ (List.reverse_perm _)⟩

/-- Without groups, a text that names the first role is replaced twice, or once if the roles come in
the other order. -/
theorem replaced_twice_chainedRoles :
    let d := linkedDescription false chainedRoles
    let d' := linkedDescription false chainedRoles.reverse
    d.check = .ok () ∧
      d.roles.Pairwise (fun r r' => Text.sameIgnoringCase r.name r'.name = false) ∧
      (d.sources.run linkedShelf).1.parsedSeed = .ok (some linkedSeed) ∧
      chainedRoles[0].names (some linkedSeed) "a" = true ∧
      d.emptyPlan.roleId chainedRoles[0].ns = "a-1-resource" ∧
      ("net", textResource "T" "servers" "a") ∈ linkedSeed.resources.entries ∧
      (∃ p, (d.build.on linkedShelf).1 = .ok p ∧
        serversOf p = some "a-1-resource-1-resource") ∧
      ∃ p', (d'.build.on linkedShelf).1 = .ok p' ∧ serversOf p' = some "a-1-resource" := by
  intro d d'
  have hbuild : (d.build.on linkedShelf).1.toOption.map serversOf =
      some (some "a-1-resource-1-resource") := by
    rw [build_linkedDescription]
    decide +kernel
  have hbuild' : (d'.build.on linkedShelf).1.toOption.map serversOf =
      some (some "a-1-resource") := by
    rw [build_linkedDescription]
    decide +kernel
  exact ⟨check_chainedRoles false, apart_chainedRoles, (sources_linkedDescription _ _).1,
    by decide +kernel, rfl, by simp [linkedSeed], exists_of_servers hbuild,
    exists_of_servers hbuild'⟩

end Description

end RolePlan
