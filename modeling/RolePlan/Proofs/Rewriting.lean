import RolePlan.Proofs.Completion
import RolePlan.Proofs.Faults
import RolePlan.Proofs.Lowercase
import RolePlan.Proofs.Portable
import RolePlan.Proofs.Texts

/-!
# What becomes of texts that name roles

The roles of a description are connected one after another, and each reads what those before it
have left. So a text goes through a chain of ids, which can only get longer and never comes back to
where it was. The resources of a plan are those of its roles and, behind them, the copies from the
seed; what all of them have gone through is a matter of each by itself.
-/

namespace RolePlan

/-! ## Types of members -/

theorem Value.field?_mapTexts (f : String → String) (v : Value) (name : String) :
    (v.mapTexts f).field? name = (v.field? name).map (mapTexts f) := by
  cases v with
  | object fields =>
      obtain ⟨entries⟩ := fields
      rw [mapTexts, mapTextsEntries_eq_map]
      exact Table.find?_map (mapTexts f) ⟨entries⟩ name
  | _ => rfl

theorem Value.string?_mapTexts (f : String → String) (v : Value) :
    (v.mapTexts f).string? = v.string?.map f := by
  cases v <;> rfl

theorem Resource.memberType?_mapTexts (f : String → String) {r : Resource} (h : r.IsPlain) :
    (r.mapTexts f).memberType? = r.memberType?.map f := by
  rw [memberType?, mapTexts_eq, Table.find?_map, memberType?]
  cases hfind : r.properties.find? definitionName with
  | none => rfl
  | some property =>
      cases property with
      | nested id member => cases h _ (Table.mem_of_find? hfind)
      | plain definition =>
          change ((definition.mapTexts f).field? "type").bind Value.string? =
            ((definition.field? "type").bind Value.string?).map f
          rw [Value.field?_mapTexts, Option.bind_map, Option.map_bind]
          exact congrArg (Option.bind _) (funext fun v => v.string?_mapTexts f)

/-- A change that makes no registered role type out of another text makes no role out of a
resource. -/
theorem Resource.isRole_mapTexts {f : String → String} {r : Resource} (hplain : r.IsPlain)
    (hrole : r.isRole = false)
    (hf : ∀ text, Namespace.aliasMark.toList.isPrefixOf text.toList = false →
      Namespace.aliasMark.toList.isPrefixOf (f text).toList = false) :
    (r.mapTexts f).isRole = false := by
  have htype : (r.mapTexts f).type = r.type := by rw [mapTexts_eq]
  rw [isRole, htype, memberType?_mapTexts f hplain]
  rw [isRole] at hrole
  cases hgroup : groupTypes.contains r.type with
  | false => rfl
  | true =>
      rw [hgroup, Bool.true_and] at hrole
      cases hmember : r.memberType? with
      | none => rfl
      | some text =>
          rw [hmember] at hrole
          exact hf text hrole

namespace Description

/-- The seed has a role of this name, ignoring case. -/
def Role.Known (r : Role) (seed : Template) : Prop :=
  ∃ entry ∈ seed.resources.entries, entry.2.isRole = true ∧
    Text.sameIgnoringCase entry.1 r.name = true

/-- The text is, ignoring case, the id of the resource that stands for the role in the seed. -/
def Role.names (seed : Option Template) (r : Role) (text : String) : Bool :=
  (seed.bind (Seed.findRole? · r.name)).any fun entry => Text.sameIgnoringCase text entry.1

def named (seed : Option Template) (roles : List Role) (text : String) : Bool :=
  roles.any (·.names seed text)

variable (d : Description)

def renamed (seed : Option Template) (r : Role) (text : String) : String :=
  if r.names seed text then d.emptyPlan.roleId r.ns else text

/-- What a text becomes when the roles are connected one after another. -/
def rewritten (seed : Option Template) (roles : List Role) (text : String) : String :=
  roles.foldl (fun text r => d.renamed seed r text) text

variable {d} {seed : Option Template}

/-! ## Chains of ids -/

theorem Role.names_iff {r : Role} {text : String} :
    r.names seed text = true ↔ ∃ t ∈ seed, ∃ entry, Seed.findRole? t r.name = some entry ∧
      Text.sameIgnoringCase text entry.1 = true := by
  cases seed with
  | none => simp [names]
  | some t => simp [names, Option.any_eq_true]

theorem Role.known_of_names {r : Role} {t : Template} {text : String}
    (h : r.names (some t) text = true) : r.Known t := by
  obtain ⟨_, hseed, entry, hfind, -⟩ := names_iff.mp h
  cases hseed
  obtain ⟨hentry, hrole⟩ := List.mem_filter.mp (List.mem_of_find?_eq_some hfind)
  exact ⟨entry, hentry, hrole, by simpa using List.find?_some hfind⟩

theorem Role.sameIgnoringCase_of_names {r : Role} {text : String} (h : r.names seed text = true) :
    Text.sameIgnoringCase text r.name = true := by
  obtain ⟨t, -, entry, hfind, htext⟩ := names_iff.mp h
  have hentry : Text.sameIgnoringCase entry.1 r.name = true := by
    simpa using List.find?_some hfind
  rw [Text.sameIgnoringCase, beq_iff_eq] at htext hentry ⊢
  exact htext.trans hentry

/-- The id of a role begins with its name and goes on. -/
theorem lowerLength_lt_roleId {r : Role} {text : String} (h : r.names seed text = true)
    (p : Plan) : Text.lowerLength text < Text.lowerLength (p.roleId r.ns) := by
  have hid : ∃ more : String, p.roleId r.ns = r.name ++ more ∧ more.toList ≠ [] := by
    rw [Plan.roleId, Role.ns]
    split
    · exact ⟨"-" ++ toString r.version ++ "-servers",
        by simp [Namespace.groupId, String.append_assoc], by simp⟩
    · exact ⟨"-" ++ toString r.version ++ "-resource",
        by simp [Namespace.resourceId, String.append_assoc], by simp⟩
  obtain ⟨more, hmore, hne⟩ := hid
  rw [hmore, Text.lowerLength_eq_of_sameIgnoringCase (Role.sameIgnoringCase_of_names h)]
  exact Text.lowerLength_lt_append r.name hne

theorem lowerLength_le_rewritten (roles : List Role) (text : String) :
    Text.lowerLength text ≤ Text.lowerLength (d.rewritten seed roles text) := by
  induction roles generalizing text with
  | nil => exact Nat.le_refl _
  | cons r rest ih =>
      refine Nat.le_trans ?_ (ih (d.renamed seed r text))
      rw [renamed]
      split
      · next h => exact Nat.le_of_lt (lowerLength_lt_roleId h d.emptyPlan)
      · exact Nat.le_refl _

theorem rewritten_append (first rest : List Role) (text : String) :
    d.rewritten seed (first ++ rest) text = d.rewritten seed rest (d.rewritten seed first text) :=
  List.foldl_append

/-- A text stays as it is exactly if it names none of the roles: a chain never comes back. -/
theorem rewritten_eq_self_iff {roles : List Role} {text : String} :
    d.rewritten seed roles text = text ↔ named seed roles text = false := by
  induction roles with
  | nil => simp [rewritten, named]
  | cons r rest ih =>
      have hcons : d.rewritten seed (r :: rest) text =
          d.rewritten seed rest (d.renamed seed r text) := rfl
      rw [hcons, named, List.any_cons, renamed]
      cases h : r.names seed text with
      | false => simpa [named] using ih
      | true =>
          have hrest : Text.lowerLength (d.emptyPlan.roleId r.ns) ≤
              Text.lowerLength (d.rewritten seed rest (d.emptyPlan.roleId r.ns)) :=
            lowerLength_le_rewritten rest _
          have hlonger := Nat.lt_of_lt_of_le (lowerLength_lt_roleId h d.emptyPlan) hrest
          simp only [if_true, Bool.true_or, Bool.true_eq_false, iff_false]
          intro hsame
          rw [hsame] at hlonger
          exact Nat.lt_irrefl _ hlonger

/-- What a text that names a role becomes in the end is the id of a role. -/
theorem exists_known_of_named {t : Template} {roles : List Role} {text : String}
    (h : named (some t) roles text = true) :
    ∃ r ∈ roles, r.Known t ∧ d.rewritten (some t) roles text = d.emptyPlan.roleId r.ns := by
  induction roles generalizing text with
  | nil => cases h
  | cons r rest ih =>
      have hcons : d.rewritten (some t) (r :: rest) text =
          d.rewritten (some t) rest (d.renamed (some t) r text) := rfl
      rw [hcons]
      cases hrest : named (some t) rest (d.renamed (some t) r text) with
      | true =>
          obtain ⟨last, hlast, hend⟩ := ih hrest
          exact ⟨last, List.mem_cons_of_mem _ hlast, hend⟩
      | false =>
          -- The chain ends with this role, since otherwise nothing has named the text.
          have hnames : r.names (some t) text = true := by
            by_contra hnot
            rw [renamed, if_neg hnot] at hrest
            rw [named, List.any_cons, eq_false_of_ne_true hnot, Bool.false_or] at h
            exact Bool.false_ne_true (hrest.symm.trans h)
          rw [rewritten_eq_self_iff.mpr hrest, renamed, if_pos hnames]
          exact ⟨r, List.mem_cons_self, Role.known_of_names hnames, rfl⟩

/-! ## Resources -/

variable (d) in
def rewrittenResource (seed : Option Template) (roles : List Role) (r : Resource) : Resource :=
  roles.foldl (fun r role => if r.isRole then r else r.mapTexts (d.renamed seed role)) r

theorem rewrittenResource_of_isRole {r : Resource} (h : r.isRole = true) (roles : List Role) :
    d.rewrittenResource seed roles r = r := by
  induction roles with
  | nil => rfl
  | cons role rest ih =>
      rw [rewrittenResource, List.foldl_cons, if_pos h]
      exact ih

/-- A resource that is never taken for a role has all its texts rewritten. -/
theorem rewrittenResource_of_topLevel {P : Resource → Prop}
    (hrole : ∀ r, P r → r.isRole = false) {roles : List Role}
    (hkeep : ∀ role ∈ roles, ∀ r, P r → P (r.mapTexts (d.renamed seed role))) {r : Resource}
    (h : P r) : d.rewrittenResource seed roles r = r.mapTexts (d.rewritten seed roles) := by
  induction roles generalizing r with
  | nil => exact (Resource.mapTexts_id r).symm
  | cons role rest ih =>
      obtain ⟨hfirst, hrest⟩ := List.forall_mem_cons.mp hkeep
      have hnext := ih hrest (hfirst r h)
      rw [Resource.mapTexts_mapTexts] at hnext
      rw [rewrittenResource, List.foldl_cons, hrole r h, if_neg Bool.false_ne_true]
      exact hnext

theorem rewrittenResource_none (roles : List Role) (r : Resource) :
    d.rewrittenResource none roles r = r := by
  have hrenamed : ∀ role, d.renamed none role = fun text => text := fun role => rfl
  induction roles with
  | nil => rfl
  | cons role rest ih =>
      rw [rewrittenResource, List.foldl_cons, hrenamed, Resource.mapTexts_id, ite_self]
      exact ih

/-- The ids of roles do not look like registered role types. -/
theorem isPrefixOf_roleId {r : Role} (h : Namespace.Simple r.ns) (p : Plan) :
    Namespace.aliasMark.toList.isPrefixOf (p.roleId r.ns).toList = false := by
  have hid : ∃ more : List Char, (p.roleId r.ns).toList = r.ns.toList ++ more ∧ ':' ∉ more := by
    rw [Plan.roleId]
    split
    · exact ⟨"-servers".toList, String.toList_append, by decide⟩
    · exact ⟨"-resource".toList, String.toList_append, by decide⟩
  obtain ⟨more, hmore, hcolon⟩ := hid
  rw [← Bool.not_eq_true, List.isPrefixOf_iff_prefix, hmore]
  intro hprefix
  have hmark : [':', ':'] <:+: Namespace.aliasMark.toList := ⟨"Tuskar".toList, [], by decide⟩
  exact Namespace.not_infix_append h.1 hcolon (hmark.trans hprefix.isInfix)

/-- What is copied from a seed is never taken for a role. -/
theorem rewrittenResource_of_isPlain {roles : List Role}
    (hroles : ∀ role ∈ roles, Namespace.Simple role.ns) {r : Resource} (hplain : r.IsPlain)
    (hrole : r.isRole = false) :
    d.rewrittenResource seed roles r = r.mapTexts (d.rewritten seed roles) := by
  refine rewrittenResource_of_topLevel (P := fun r => r.IsPlain ∧ r.isRole = false)
    (fun r h => h.2) (fun role hm r h => ⟨h.1.mapTexts _, ?_⟩) ⟨hplain, hrole⟩
  refine Resource.isRole_mapTexts h.1 h.2 fun text htext => ?_
  rw [renamed]
  split
  · exact isPrefixOf_roleId (hroles role hm) d.emptyPlan
  · exact htext

theorem scaling_connect (r : Role) (t : Template) (p : Plan) :
    (r.connect t p).scaling = p.scaling := by
  unfold Role.connect
  split <;> rfl

theorem resources_connect (r : Role) (t : Template) {p : Plan} (hp : p.scaling = d.scalingEnabled) :
    (r.connect t p).template.resources =
      p.template.resources.map (d.rewrittenResource (some t) [r]) := by
  have hid : p.roleId r.ns = d.emptyPlan.roleId r.ns := by rw [Plan.roleId, hp]; rfl
  cases hfind : Seed.findRole? t r.name with
  | none =>
      have hsame : d.renamed (some t) r = fun text => text := by
        funext text
        simp [renamed, Role.names, hfind]
      have hself : ∀ entry ∈ p.template.resources.entries,
          d.rewrittenResource (some t) [r] entry.2 = entry.2 := by
        intro entry _
        simp [rewrittenResource, hsame]
      rw [Role.connect, hfind, Table.map_eq_self hself]
  | some entry =>
      have hrename : Seed.rename entry.1 (p.roleId r.ns) = d.renamed (some t) r := by
        funext text
        simp [renamed, Role.names, hfind, Seed.rename, hid]
      have hstep : d.rewrittenResource (some t) [r] = fun res =>
          if res.isRole then res else res.mapTexts (Seed.rename entry.1 (p.roleId r.ns)) := by
        rw [hrename]
        rfl
      rw [Role.connect, hfind, hstep]
      rfl

theorem resources_connectRoles (roles : List Role) (t : Template) {p : Plan}
    (hp : p.scaling = d.scalingEnabled) :
    (roles.foldl (fun p r => r.connect t p) p).template.resources =
      p.template.resources.map (d.rewrittenResource (some t) roles) := by
  induction roles generalizing p with
  | nil => exact (Table.map_eq_self fun _ _ => rfl).symm
  | cons r rest ih =>
      rw [List.foldl_cons, ih ((scaling_connect r t p).trans hp), resources_connect r t hp,
        Table.map_map]
      rfl

/-- Only resources change when the roles are connected. -/
theorem kept_connectRoles (roles : List Role) (t : Template) (p : Plan) :
    let q := roles.foldl (fun p r => r.connect t p) p
    q.template.parameters = p.template.parameters ∧ q.template.outputs = p.template.outputs := by
  induction roles generalizing p with
  | nil => exact ⟨rfl, rfl⟩
  | cons r rest ih =>
      have hstep : (r.connect t p).template.parameters = p.template.parameters ∧
          (r.connect t p).template.outputs = p.template.outputs := by
        rw [Role.connect]
        split
        · exact ⟨rfl, rfl⟩
        · exact ⟨rfl, rfl⟩
      exact ⟨(ih _).1.trans hstep.1, (ih _).2.trans hstep.2⟩

/-! ## The resources of a plan -/

theorem of_addTo {r : Role} {template : Template} (htemplate : template.Distinct)
    {fixed : Option (Table Value)} {p q : Plan} (h : r.addTo template fixed p = .ok q) :
    p.roleId r.ns ∉ p.template.resources.names ∧ q.scaling = p.scaling ∧
      q.template.resources = p.template.resources.extend
        [(p.roleId r.ns, p.roleEntry r.ns template (fixed.getD .empty))] := by
  obtain ⟨hfree, hvalues⟩ := free_of_addTo htemplate h
  obtain ⟨-, t, -, rfl⟩ := eq_of_setValues hvalues
  exact ⟨hfree.roleId, rfl, rfl⟩

/-- The resources of the roles are added one after another, each under an id of its own. -/
theorem exists_additions {sources : List (Role × Answer)} {p q : Plan}
    (hp : p.scaling = d.scalingEnabled) (hdistinct : p.template.resources.Distinct)
    (h : sources.foldlM (addSource seed) p = .ok q) :
    ∃ additions : List Plan.Addition, List.Forall₂ (d.Supplies seed) sources additions ∧
      q.scaling = d.scalingEnabled ∧ q.template.resources.Distinct ∧
      q.template.resources =
        p.template.resources.extend (additions.map fun a => (a.id, a.resource)) := by
  induction sources generalizing p with
  | nil =>
      cases h
      exact ⟨[], .nil, hp, hdistinct, by simp⟩
  | cons source rest ih =>
      obtain ⟨r, answer⟩ := source
      rw [List.foldlM_cons] at h
      obtain ⟨p₁, hfirst, hrest⟩ := Proofs.bind_eq_ok h
      obtain ⟨template, htemplate, hfirst⟩ := Proofs.bind_eq_ok hfirst
      obtain ⟨fixed, hfixed, hfirst⟩ := Proofs.bind_eq_ok hfirst
      obtain ⟨hnew, hscaling, hresources⟩ :=
        of_addTo (Answer.loaded_of_template htemplate).wellFormed.toDistinct hfirst
      obtain ⟨additions, hsupplies, hq, hdistinct', hall⟩ :=
        ih (hscaling.trans hp) (hresources ▸ hdistinct.extend hnew _) hrest
      let a : Plan.Addition :=
        ⟨r.ns, template, r.registryFilename, fixed.getD .empty, d.scalingEnabled⟩
      have hentry : (p.roleId r.ns, p.roleEntry r.ns template (fixed.getD .empty)) =
          (a.id, a.resource) := by
        simp only [Plan.roleEntry, Plan.roleId, hp]
        rfl
      refine ⟨a :: additions, .cons (.intro htemplate hfixed) hsupplies, hq, hdistinct', ?_⟩
      rw [hall, hresources, hentry, Table.extend_extend]
      rfl

/-- The resource stands for no role, and its id is not taken. -/
def isCopied (taken : List String) (entry : String × Resource) : Bool :=
  !entry.2.isRole && !taken.contains entry.1

theorem isCopied_iff {taken : List String} {entry : String × Resource} :
    isCopied taken entry = true ↔ entry.2.isRole = false ∧ entry.1 ∉ taken := by
  simp [isCopied]

/-- What is copied from a seed to where some ids are taken. -/
def copies (seed : Option Template) (taken : List String) : List (String × Resource) :=
  (seed.elim [] (·.resources.entries)).filter (isCopied taken)

theorem resources_addResources {t u v : Template} (ht : t.resources.Distinct)
    (h : Seed.addResources t u = .ok v) :
    v.resources = u.resources.extend (copies (some t) u.resources.names) := by
  rw [Seed.addResources_eq ht] at h
  cases h
  have htest (entry : String × Resource) :
      (!u.resources.contains entry.1 && !entry.2.isRole) = isCopied u.resources.names entry := by
    rw [Bool.eq_iff_iff, isCopied_iff, Bool.and_eq_true, Bool.not_eq_true', Bool.not_eq_true',
      Table.contains_eq_false_iff, and_comm]
  rw [Seed.withResources, Table.complete, Table.missing, Seed.topLevelResources,
    List.filter_filter]
  simp only [htest]
  rfl

/-- Resources and outputs are copied from a seed by themselves. -/
theorem copied_of_inject {t : Template} {p q : Plan} (h : inject t p = .ok q) :
    q.scaling = p.scaling ∧
      (∃ u, Seed.addResources t p.template = .ok u ∧ q.template.resources = u.resources) ∧
      ∀ entry ∈ q.template.outputs.entries,
        entry ∈ p.template.outputs.entries ∨ entry ∈ t.outputs.entries := by
  obtain ⟨u, hu, h⟩ := Proofs.bind_eq_ok h
  obtain ⟨target, htarget, h⟩ := Proofs.bind_eq_ok h
  obtain ⟨v, hv, h⟩ := Proofs.bind_eq_ok h
  cases h
  obtain ⟨-, houtputs, -⟩ := Seed.copied_of_addResources hu
  obtain ⟨hresources', houtputs', -⟩ := Seed.copied_of_addParameters htarget
  obtain ⟨-, hresources, hcopied⟩ := Seed.copied_of_addOutputs hv
  rw [houtputs', houtputs] at hcopied
  exact ⟨rfl, ⟨u, hu, hresources.trans hresources'⟩, hcopied⟩

theorem of_inject {t : Template} (ht : t.resources.Distinct) {p q : Plan}
    (h : inject t p = .ok q) : q.scaling = p.scaling ∧ q.template.resources =
      p.template.resources.extend (copies (some t) p.template.resources.names) := by
  obtain ⟨hscaling, ⟨u, hu, hresources⟩, -⟩ := copied_of_inject h
  exact ⟨hscaling, hresources.trans (resources_addResources ht hu)⟩

theorem nodup_copies (hseed : ∀ t ∈ seed, t.resources.Distinct) {taken : List String}
    (htaken : taken.Nodup) : (taken ++ (copies seed taken).map (·.1)).Nodup := by
  refine List.nodup_append.mpr ⟨htaken, ?_, ?_⟩
  · cases seed with
    | none => exact List.nodup_nil
    | some t => exact (hseed t rfl).sublist (List.filter_sublist.map _)
  · rintro id hid _ hcopy rfl
    obtain ⟨entry, he, rfl⟩ := List.mem_map.mp hcopy
    exact (isCopied_iff.mp (List.mem_filter.mp he).2).2 hid

/-- The resources of the plan are those of its roles and, behind them, copies from the seed, all of
them rewritten. -/
structure Assembles (d : Description) (seed : Option Template) (sources : List (Role × Answer))
    (additions : List Plan.Addition) (p : Plan) : Prop where
  supplies : List.Forall₂ (d.Supplies seed) sources additions
  distinct : p.template.resources.Distinct
  resources : p.template.resources =
    (⟨(additions.map fun a => (a.id, a.resource)) ++ copies seed (additions.map (·.id))⟩ :
      Table Resource).map (d.rewrittenResource seed d.roles)

/-- What comes from a seed goes behind what is there, and then all of it is rewritten. -/
theorem resources_of_surround (hseed : ∀ t ∈ seed, t.Loaded) {p q : Plan}
    (hp : p.scaling = d.scalingEnabled) (h : surround seed d.roles p = .ok q) :
    q.template.resources =
      (p.template.resources.extend (copies seed p.template.resources.names)).map
        (d.rewrittenResource seed d.roles) := by
  cases seed with
  | none =>
      cases h
      rw [Table.map_eq_self fun _ _ => rewrittenResource_none _ _]
      exact (Table.extend_nil _).symm
  | some t =>
      obtain ⟨p₁, hinject, hconnect⟩ := Proofs.bind_eq_ok h
      cases hconnect
      obtain ⟨hkept, hcopied⟩ := of_inject (hseed t rfl).wellFormed.resources hinject
      rw [resources_connectRoles d.roles t (hkept.trans hp), hcopied]

theorem exists_assembles {src : Sources} (hseed : src.parsedSeed = .ok seed) {p : Plan}
    (h : d.planOf src = .ok p) : ∃ additions, d.Assembles seed src.roles additions p := by
  obtain ⟨p₀, p₁, hroles, hsurround, hvalues⟩ := exists_stages hseed h
  obtain ⟨additions, hsupplies, hscaling, hdistinct, hresources⟩ :=
    exists_additions (p := d.emptyPlan) rfl List.nodup_nil hroles
  have hnames : p₀.template.resources.names = additions.map (·.id) := by
    rw [hresources, Table.names_extend, List.map_map]
    rfl
  have hloaded := Sources.loaded_of_parsedSeed hseed
  have hall := resources_of_surround hloaded hscaling hsurround
  have hnodup := nodup_copies (fun t ht => (hloaded t ht).wellFormed.resources) hdistinct
  rw [← template_of_setValues hvalues] at hall
  refine ⟨additions, hsupplies, ?_, ?_⟩
  · rwa [hall, Table.Distinct, Table.names_map, Table.names_extend]
  · rw [hall, hnames, hresources]
    rfl

namespace Assembles

variable {sources : List (Role × Answer)} {additions : List Plan.Addition} {p : Plan}

theorem find?_of_mem (h : d.Assembles seed sources additions p) {entry : String × Resource}
    (he : entry ∈ (additions.map fun a => (a.id, a.resource)) ++
      copies seed (additions.map (·.id))) :
    p.template.resources.find? entry.1 = some (d.rewrittenResource seed d.roles entry.2) := by
  refine Table.find?_of_mem h.distinct ?_
  rw [h.resources]
  exact List.mem_map.mpr ⟨entry, he, rfl⟩

theorem find?_id (h : d.Assembles seed sources additions p) {a : Plan.Addition}
    (ha : a ∈ additions) :
    p.template.resources.find? a.id = some (d.rewrittenResource seed d.roles a.resource) := by
  have hentry : (a.id, a.resource) ∈ additions.map fun a => (a.id, a.resource) :=
    List.mem_map.mpr ⟨a, ha, rfl⟩
  exact h.find?_of_mem (List.mem_append_left _ hentry)

theorem map_id_eq (h : d.Assembles seed sources additions p) :
    additions.map (·.id) = sources.map fun source => d.emptyPlan.roleId source.1.ns := by
  have hsupplies := h.supplies
  clear h
  induction hsupplies with
  | nil => rfl
  | cons hfirst _ ih =>
      cases hfirst
      exact congrArg (_ :: ·) ih

theorem exists_supplies (h : d.Assembles seed sources additions p) {source : Role × Answer}
    (hsource : source ∈ sources) : ∃ a ∈ additions, d.Supplies seed source a := by
  have hsupplies := h.supplies
  clear h
  induction hsupplies with
  | nil => cases hsource
  | cons hfirst _ ih =>
      rcases List.mem_cons.mp hsource with rfl | hrest
      · exact ⟨_, List.mem_cons_self, hfirst⟩
      · obtain ⟨a, ha, hsupplied⟩ := ih hrest
        exact ⟨a, List.mem_cons_of_mem _ ha, hsupplied⟩

end Assembles

end Description

end RolePlan
