import RolePlan.Proofs.Parsed
import RolePlan.Proofs.Run

/-!
# Plans that can be stored and read again

Every call keeps a plan well-formed and free of settings that would get lost. An inline resource
stands only in the group of a role, where no text is ever replaced. The templates of roles and
seeds are read from texts.
-/

namespace RolePlan

namespace Resource

def Settled (r : Resource) : Prop := r.isRole = true ∨ r.IsPlain

/-! ## Replacing texts -/

theorem mapTextsProperties_eq_map (f : String → String) (entries : List (String × PropertyValue)) :
    mapTextsProperties f entries =
      entries.map fun entry => (entry.1, mapTextsProperty f entry.2) := by
  induction entries with
  | nil => rfl
  | cons entry rest ih => rw [mapTextsProperties, ih, List.map_cons]

theorem mapTexts_eq (f : String → String) (r : Resource) :
    r.mapTexts f = { r with properties := r.properties.map (mapTextsProperty f) } := by
  obtain ⟨type, metadata, dependsOn, updatePolicy, deletionPolicy, ⟨properties⟩⟩ := r
  rw [mapTexts, mapTextsProperties_eq_map]
  rfl

theorem IsPlain.mapTexts {r : Resource} (h : r.IsPlain) (f : String → String) :
    (r.mapTexts f).IsPlain := by
  rw [mapTexts_eq]
  intro entry he
  obtain ⟨old, ho, rfl⟩ := List.mem_map.mp he
  have hplain := h old ho
  generalize old.2 = property at hplain
  cases property with
  | plain value => rfl
  | nested id member => cases hplain

theorem WellFormed.mapTexts {r : Resource} (h : r.WellFormed) (hplain : r.IsPlain)
    (f : String → String) : (r.mapTexts f).WellFormed := by
  rw [mapTexts_eq]
  refine ⟨h.metadata, h.dependsOn, h.updatePolicy, h.deletionPolicy, h.distinct.map _, ?_⟩
  intro entry he
  obtain ⟨old, ho, rfl⟩ := List.mem_map.mp he
  have hvalue := h.properties old ho
  have hold := hplain old ho
  generalize old.2 = property at hold hvalue
  cases property with
  | plain value => exact hvalue.mapTexts f
  | nested id member => cases hold

theorem Storable.mapTexts {r : Resource} (h : r.Storable) (f : String → String) :
    (r.mapTexts f).Storable := by
  rw [mapTexts_eq]
  exact ⟨h.metadata, h.dependsOn, h.updatePolicy, h.deletionPolicy⟩

end Resource

namespace Template

/-- The template can be stored and read again, and then be worked on as before. -/
structure Portable (t : Template) : Prop where
  wellFormed : t.WellFormed
  storable : t.Storable
  settled : ∀ entry ∈ t.resources.entries, entry.2.Settled

variable {t u : Template} {name : String}

theorem portable_new (version : String) (description : Option String) :
    ({ version, description } : Template).Portable :=
  ⟨wellFormed_new version description, ⟨by simp, by simp⟩, by simp⟩

theorem Portable.addParameter (ht : t.Portable) {p : Parameter} (hwell : p.WellFormed)
    (hstorable : p.Storable) (h : t.addParameter name p = .ok u) : u.Portable := by
  obtain ⟨hw, hs, hr⟩ := ht
  have hadded := hw.addParameter hwell h
  obtain ⟨-, rfl⟩ := eq_of_addParameter h
  exact ⟨hadded, ⟨Table.forall_mem_extend hs.ofParameters hstorable, hs.ofResources⟩, hr⟩

theorem Portable.addResource (ht : t.Portable) {r : Resource} (hwell : r.WellFormed)
    (hstorable : r.Storable) (hsettled : r.Settled) (h : t.addResource name r = .ok u) :
    u.Portable := by
  obtain ⟨hw, hs, hr⟩ := ht
  have hadded := hw.addResource hwell h
  obtain ⟨-, rfl⟩ := eq_of_addResource h
  exact ⟨hadded, ⟨hs.ofParameters, Table.forall_mem_extend hs.ofResources hstorable⟩,
    Table.forall_mem_extend hr hsettled⟩

theorem Portable.addOutput (ht : t.Portable) {o : Output} (hwell : o.value.WellFormed)
    (h : t.addOutput name o = .ok u) : u.Portable := by
  obtain ⟨hw, hs, hr⟩ := ht
  have hadded := hw.addOutput hwell h
  obtain ⟨-, rfl⟩ := eq_of_addOutput h
  exact ⟨hadded, ⟨hs.ofParameters, hs.ofResources⟩, hr⟩

theorem Portable.expand (ht : t.Portable) : t.expand.Portable := by
  obtain ⟨hw, hs, -⟩ := ht
  refine ⟨⟨⟨hw.parameters, hw.resources.map _, hw.outputs⟩, hw.ofParameters, hw.ofGroups, ?_,
    hw.ofOutputs⟩, ⟨hs.ofParameters, ?_⟩, ?_⟩
  all_goals
    intro entry he
    obtain ⟨old, ho, rfl⟩ := List.mem_map.mp he
  · exact (hw.ofResources old ho).expand
  · exact (hs.ofResources old ho).expand
  · exact .inr (Resource.isPlain_expand old.2)

/-- Replacing texts does not touch the roles, and leaves value trees where there were some. -/
theorem settled_updateReferences (h : ∀ entry ∈ t.resources.entries, entry.2.Settled)
    (role id : String) :
    ∀ entry ∈ (Seed.updateReferences t role id).2.resources.entries, entry.2.Settled := by
  intro entry he
  obtain ⟨old, ho, rfl⟩ := List.mem_map.mp he
  dsimp only
  split
  · exact h old ho
  · next hrole => exact .inr (((h old ho).resolve_left hrole).mapTexts _)

theorem Portable.updateReferences (ht : t.Portable) (role id : String) :
    (Seed.updateReferences t role id).2.Portable := by
  obtain ⟨hw, hs, hr⟩ := ht
  have hrest : ∀ entry ∈ (Seed.updateReferences t role id).2.resources.entries,
      entry.2.WellFormed ∧ entry.2.Storable := by
    intro entry he
    obtain ⟨old, ho, rfl⟩ := List.mem_map.mp he
    dsimp only
    split
    · exact ⟨hw.ofResources old ho, hs.ofResources old ho⟩
    · next hrole =>
        have hplain := (hr old ho).resolve_left hrole
        exact ⟨(hw.ofResources old ho).mapTexts hplain _, (hs.ofResources old ho).mapTexts _⟩
  exact ⟨⟨⟨hw.parameters, hw.resources.map _, hw.outputs⟩, hw.ofParameters, hw.ofGroups,
    fun entry he => (hrest entry he).1, hw.ofOutputs⟩,
    ⟨hs.ofParameters, fun entry he => (hrest entry he).2⟩, settled_updateReferences hr role id⟩

end Template

namespace Plan

/-! ## What a role brings along -/

theorem wellFormed_lookup (name : String) : (lookup name).WellFormed :=
  Value.WellFormed.single (Value.wellFormed_string name) _

theorem wellFormed_passedOutput (id name : String) (output : Output) :
    (passedOutput id name output).value.WellFormed :=
  Value.WellFormed.single (by simp) _

theorem wellFormed_countParameter : countParameter.WellFormed ∧ countParameter.Storable := by
  refine ⟨⟨?_, ?_⟩, ⟨?_, ?_⟩⟩
  · simp [countParameter, Value.WellFormed]
  · simpa [countParameter] using Value.WellFormed.single (v := .int 1) trivial "min"
  · simp [countParameter]
  · simp [countParameter]

theorem isPlain_roleResource (ns : String) (role : Template) (overrides : Table Value) :
    (roleResource ns role overrides).IsPlain := by
  intro entry he
  obtain ⟨name, -, rfl⟩ := List.mem_map.mp he
  rfl

theorem wellFormed_roleResource (ns : String) {role : Template} (hrole : role.Distinct)
    {overrides : Table Value} (hover : ∀ entry ∈ overrides.entries, entry.2.WellFormed) :
    (roleResource ns role overrides).WellFormed := by
  have hargument : ∀ name, (argument ns overrides name).WellFormed := by
    intro name
    rw [argument]
    cases hf : overrides.find? name with
    | none => exact wellFormed_lookup _
    | some v => exact hover _ (Table.mem_of_find? hf)
  refine ⟨by simp [roleResource], by simp [roleResource], by simp [roleResource],
    by simp [roleResource], ?_, ?_⟩
  · have hnames : (roleResource ns role overrides).properties.names = role.parameters.names := by
      simp [roleResource, Table.names, Function.comp_def]
    rw [Table.Distinct, hnames]
    exact hrole.parameters
  · intro entry he
    obtain ⟨name, -, rfl⟩ := List.mem_map.mp he
    exact hargument name

theorem isRole_groupAround (ns id : String) (role : Template) (overrides : Table Value) :
    (groupAround ns id (roleResource ns role overrides)).isRole = true := by
  have hmember : (groupAround ns id (roleResource ns role overrides)).memberType? =
      some (Namespace.aliasOf ns) := rfl
  rw [Resource.isRole, hmember, Option.any_some, Namespace.isPrefixOf_aliasOf]
  rfl

theorem wellFormed_groupAround (ns id : String) {member : Resource} (h : member.WellFormed) :
    (groupAround ns id member).WellFormed := by
  have hnames : [Resource.countName, Resource.definitionName].Nodup := by decide
  refine ⟨by simp [groupAround], by simp [groupAround], by simp [groupAround],
    by simp [groupAround], hnames, ?_⟩
  simpa [groupAround, Resource.propertyValue] using ⟨wellFormed_lookup _, h.toValue⟩

theorem settled_roleEntry (p : Plan) (ns : String) (role : Template) (overrides : Table Value) :
    (p.roleEntry ns role overrides).Settled := by
  simp only [roleEntry]
  split
  · exact .inl (isRole_groupAround ns _ role overrides)
  · exact .inr (isPlain_roleResource ns role overrides)

theorem roleEntry_spec (p : Plan) (ns : String) {role : Template} (hrole : role.Distinct)
    {overrides : Table Value} (hover : ∀ entry ∈ overrides.entries, entry.2.WellFormed) :
    (p.roleEntry ns role overrides).WellFormed ∧ (p.roleEntry ns role overrides).Storable := by
  have hmember := wellFormed_roleResource ns hrole hover
  simp only [roleEntry]
  split
  · refine ⟨wellFormed_groupAround ns _ hmember, ?_⟩
    constructor <;> simp [groupAround]
  · refine ⟨hmember, ?_⟩
    constructor <;> simp [roleResource]

/-! ## Elementary changes -/

structure Portable (p : Plan) : Prop where
  template : p.template.Portable
  environment : p.environment.WellFormed

theorem portable_new (version : String) (description : Option String) (scaling : Bool) :
    ({ template := { version, description }, scaling } : Plan).Portable :=
  ⟨Template.portable_new version description, ⟨List.nodup_nil, List.nodup_nil, by simp⟩⟩

theorem portable_nil : ({} : Plan).Portable := portable_new _ none true

theorem Portable.expand {p : Plan} (h : p.Portable) : p.expand.Portable :=
  ⟨h.template.expand, h.environment⟩

/-- An edit of the template that keeps it portable. -/
private theorem keeps_editPortable {f : Template → Except Error Template}
    (h : ∀ t u, t.Portable → f t = .ok u → u.Portable) :
    Change.Keeps Portable (Change.edit fun p => do return { p with template := ← f p.template }) :=
  Change.keeps_editTemplate fun _ _ hp hu => ⟨h _ _ hp.template hu, hp.environment⟩

theorem portable_addValue {e f : Environment} (he : e.WellFormed) {name : String} {v : Value}
    (hv : v.WellFormed) (h : e.addParameter name v = .ok f) : f.WellFormed := by
  obtain ⟨hnew, rfl⟩ := Environment.eq_of_addParameter h
  exact ⟨he.parameters.extend hnew v, he.registry, Table.forall_mem_extend he.values hv⟩

theorem portable_declare (name : String) {parameter : Parameter} (hwell : parameter.WellFormed)
    (hstorable : parameter.Storable) : Change.Keeps Portable (Change.declare name parameter) := by
  refine (keeps_editPortable (f := (·.addParameter name parameter)) fun t u ht h =>
    ht.addParameter hwell hstorable h).bind fun _ => Change.keeps_edit fun p q hp hq => ?_
  obtain ⟨e, hf, hq⟩ := Proofs.bind_eq_ok hq
  cases hq
  exact ⟨hp.template, portable_addValue hp.environment hwell.initialValue hf⟩

theorem portable_mergeRole (ns : String) {role : Template} (hrole : role.Loaded) (filename : String)
    {overrides : Table Value} (hover : ∀ entry ∈ overrides.entries, entry.2.WellFormed) :
    Change.Keeps Portable (Change.mergeRole ns role filename overrides) := by
  refine Change.keeps_mergeRole (fun entry he => ?_) ?_ (fun before => ?_)
    (fun before entry _ => ?_) fun p hp => ?_
  · exact portable_declare _ (hrole.wellFormed.ofParameters entry he)
      (hrole.storable.ofParameters entry he)
  · exact portable_declare _ wellFormed_countParameter.1 wellFormed_countParameter.2
  · obtain ⟨hwell, hstorable⟩ := before.roleEntry_spec ns hrole.wellFormed.toDistinct hover
    exact keeps_editPortable fun t u ht h =>
      ht.addResource hwell hstorable (before.settled_roleEntry ns role overrides) h
  · exact keeps_editPortable fun t u ht h => ht.addOutput (wellFormed_passedOutput _ _ _) h
  · exact ⟨hp.template, hp.environment.parameters, hp.environment.registry.put _ _,
      hp.environment.values⟩

theorem Portable.removeRole {p : Plan} (h : p.Portable) (ns : String) :
    (p.removeRole ns).Portable := by
  obtain ⟨⟨hw, hs, hr⟩, he⟩ := h
  rw [removeRole_eq]
  exact ⟨⟨⟨⟨hw.parameters.keep _, hw.resources.keep _, hw.outputs.keep _⟩,
    Table.forall_mem_keep hw.ofParameters _, hw.ofGroups, Table.forall_mem_keep hw.ofResources _,
    Table.forall_mem_keep hw.ofOutputs _⟩,
    ⟨Table.forall_mem_keep hs.ofParameters _, Table.forall_mem_keep hs.ofResources _⟩,
    Table.forall_mem_keep hr _⟩,
    ⟨he.parameters.keep _, he.registry.keep _, Table.forall_mem_keep he.values _⟩⟩

/-! ## Steps -/

/-- The roles and seeds of the step are read from texts, and its values are well-formed. -/
def Step.Sound : Step → Prop
  | edit (.addRole _ role _ overrides) =>
      (∃ text, Template.parse text = .ok role) ∧ ∀ entry ∈ overrides.entries, entry.2.WellFormed
  | edit (.removeRole _) => True
  | edit (.setValue _ value) => value.WellFormed
  | edit (.withScaling _) => True
  | addResources seed => ∃ text, Template.parse text = .ok seed
  | addParameters seed => ∃ text, Template.parse text = .ok seed
  | addOutputs seed => ∃ text, Template.parse text = .ok seed
  | updateReferences _ _ => True

theorem portable_addResources {seed t u : Template} (hseed : seed.Loaded) (ht : t.Portable)
    (h : Seed.addResources seed t = .ok u) : u.Portable := by
  refine Proofs.foldlM_keeps (P := Template.Portable) (fun t entry he ht u hu => ?_) ht h
  rw [Seed.addResource] at hu
  split at hu
  · cases hu
    exact ht
  · exact ht.addResource (hseed.wellFormed.ofResources entry he)
      (hseed.storable.ofResources entry he) (.inr (hseed.plain entry he)) hu

theorem portable_addOutputs {seed t u : Template} (hseed : seed.Loaded) (ht : t.Portable)
    (h : Seed.addOutputs seed t = .ok u) : u.Portable := by
  refine Proofs.foldlM_keeps (P := Template.Portable) (fun t entry he ht u hu => ?_) ht h
  rw [Seed.addOutput] at hu
  split at hu
  · cases hu
    exact ht
  · exact ht.addOutput (hseed.wellFormed.ofOutputs entry he) hu

theorem portable_addParameters {seed : Template} {target : Template × Environment}
    {t : Template} {e : Environment} (hseed : seed.Loaded) (ht : t.Portable) (he : e.WellFormed)
    (h : Seed.addParameters seed t e = .ok target) :
    target.1.Portable ∧ target.2.WellFormed := by
  refine Proofs.foldlM_keeps
    (P := fun target : Template × Environment => target.1.Portable ∧ target.2.WellFormed)
    (fun target entry hm htarget next hnext => ?_) ⟨ht, he⟩ h
  obtain ⟨t, e⟩ := target
  have hwell := hseed.wellFormed.ofParameters entry hm
  rw [Seed.addParameter] at hnext
  split at hnext
  · cases hnext
    exact htarget
  · obtain ⟨u, hu, hnext⟩ := Proofs.bind_eq_ok hnext
    have hportable := htarget.1.addParameter hwell (hseed.storable.ofParameters entry hm) hu
    split at hnext
    · cases hnext
      exact ⟨hportable, htarget.2⟩
    · obtain ⟨f, hf, hnext⟩ := Proofs.bind_eq_ok hnext
      cases hnext
      exact ⟨hportable, portable_addValue htarget.2 hwell.initialValue hf⟩

theorem Edit.keeps_portable {e : Edit} (he : (Step.edit e).Sound) :
    Change.Keeps Portable e.change := by
  cases e with
  | removeRole ns => exact Change.keeps_modify fun _ hp => hp.removeRole ns
  | withScaling scaling => exact Change.keeps_modify fun _ hp => ⟨hp.template, hp.environment⟩
  | addRole ns role filename overrides =>
      obtain ⟨⟨text, hparse⟩, hover⟩ := he
      exact portable_mergeRole ns (Template.loaded_of_parse hparse) filename hover
  | setValue name value =>
      refine Change.keeps_edit fun p q hp hq => ?_
      obtain ⟨e, hset, hq⟩ := Proofs.bind_eq_ok hq
      cases hq
      rw [Environment.setParameter] at hset
      split at hset
      · cases hset
        refine ⟨hp.template, hp.environment.parameters.put _ _, hp.environment.registry, ?_⟩
        intro entry hm
        rcases Table.mem_entries_put hm with hm | rfl
        · exact hp.environment.values entry hm
        · exact he
      · cases hset

/-- Every step keeps a plan portable, whether it succeeds or fails. -/
theorem Step.keeps_portable {s : Step} (hs : s.Sound) : Change.Keeps Portable s.change := by
  cases s with
  | edit e => exact (Edit.keeps_portable hs).bind fun _ => Change.keeps_pure _
  | updateReferences role id =>
      exact fun p hp => ⟨hp.template.updateReferences role id, hp.environment⟩
  | addResources seed =>
      obtain ⟨text, hparse⟩ := hs
      exact (keeps_editPortable fun t u ht h => portable_addResources
        (Template.loaded_of_parse hparse) ht h).bind fun _ => Change.keeps_pure _
  | addOutputs seed =>
      obtain ⟨text, hparse⟩ := hs
      exact (keeps_editPortable fun t u ht h => portable_addOutputs
        (Template.loaded_of_parse hparse) ht h).bind fun _ => Change.keeps_pure _
  | addParameters seed =>
      obtain ⟨text, hparse⟩ := hs
      refine (Change.keeps_edit fun p q hp hq => ?_).bind fun _ => Change.keeps_pure _
      obtain ⟨target, htarget, hq⟩ := Proofs.bind_eq_ok hq
      cases hq
      obtain ⟨ht, he⟩ := portable_addParameters (Template.loaded_of_parse hparse) hp.template
        hp.environment htarget
      exact ⟨ht, he⟩

end Plan

end RolePlan
