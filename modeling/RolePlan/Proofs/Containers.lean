import RolePlan.Proofs.TableHistory
import RolePlan.Proofs.Template

/-!
# Containers under any use

Templates, environments and resources keep their named parts in tables: of parameters, resources
and outputs, of values and files, and of properties. Whatever is done to them after they were new,
each table holds what its history says. Parameters, resources, outputs and values are refused if
their name is taken; files and properties are replaced in their place. What a call gives back is
what it takes away. The groups of a template have no names of their own: labels may be repeated.
-/

namespace RolePlan

/-! ## The calls of a container -/

/-- The state after a step: where the step is refused, the one before it. -/
def settle {σ : Type} (s : σ) : Except Error σ → σ
  | .ok s' => s'
  | .error _ => s

namespace Table

variable {α σ : Type}

/-- Entries are found under their own names, and nothing else is. -/
structure Finding (item : Item) (t : Table α) (find : String → Except Error α) : Prop where
  found : ∀ name value, find name = .ok value ↔ (name, value) ∈ t.entries
  missing : ∀ name, find name = .error (.notFound item name) ↔ name ∉ t.names

/-- Of the whole that keeps the table, no other part changes when an entry is removed, and the
others stay in their order. The value of the entry is given back. -/
structure Removing (t : Table α) (whole : Table α → σ) (remove : String → Option α × σ) : Prop where
  removed : ∀ before name value after, t.entries = before ++ (name, value) :: after →
    remove name = (some value, whole ⟨before ++ after⟩)
  missing : ∀ name, name ∉ t.names → remove name = (none, whole t)

/-- A name that is taken is refused, and all stays as it was. A new one goes to the end. -/
structure Refusing (item : Item) (t : Table α) (whole : Table α → σ)
    (add : String → α → Except Error σ) : Prop where
  taken : ∀ name value, name ∈ t.names →
    add name value = .error (.duplicate item name) ∧ settle (whole t) (add name value) = whole t
  added : ∀ name value, name ∉ t.names →
    add name value = .ok (whole ⟨t.entries ++ [(name, value)]⟩)

/-- A value takes the place of the one that its name has, which is given back. A new name goes to
the end. -/
structure Replacing (t : Table α) (whole : Table α → σ) (put : String → α → Option α × σ) :
    Prop where
  replaced : ∀ before name old after value, t.entries = before ++ (name, old) :: after →
    put name value = (some old, whole ⟨before ++ (name, value) :: after⟩)
  added : ∀ name value, name ∉ t.names →
    put name value = (none, whole ⟨t.entries ++ [(name, value)]⟩)

/-- A value takes the place of the one that its name has. A name without one is refused, and all
stays as it was. -/
structure Setting (item : Item) (t : Table α) (whole : Table α → σ)
    (set : String → α → Except Error σ) : Prop where
  replaced : ∀ before name old after value, t.entries = before ++ (name, old) :: after →
    set name value = .ok (whole ⟨before ++ (name, value) :: after⟩)
  missing : ∀ name value, name ∉ t.names →
    set name value = .error (.notFound item name) ∧ settle (whole t) (set name value) = whole t

/-- The entries of a namespace are given back and the others stay, both in their order. -/
def Draining (t : Table α) (whole : Table α → σ) (drain : String → Table α × σ) : Prop :=
  ∀ ns, ∃ taken rest, drain ns = (taken, whole rest) ∧
    (taken.entries, rest.entries) = t.entries.partition fun entry => Namespace.owns ns entry.1

variable {t : Table α}

theorem Distinct.finding (ht : t.Distinct) (item : Item) :
    t.Finding item (Template.find item t) := by
  constructor
  · intro name value
    rw [← ht.find?_eq_some_iff, Template.find]
    cases t.find? name <;> simp
  · intro name
    rw [← find?_eq_none_iff, Template.find]
    cases t.find? name <;> simp

theorem Distinct.removing (ht : t.Distinct) (whole : Table α → σ) :
    t.Removing whole fun name => ((t.take name).1, whole (t.take name).2) := by
  constructor
  · intro before name value after h
    rw [take, find?_of_entries ht h, erase_of_entries ht h]
  · intro name hm
    rw [take, find?_eq_none_iff.mpr hm, erase_of_not_mem hm]

theorem Distinct.replacing (ht : t.Distinct) (whole : Table α → σ) :
    t.Replacing whole fun name value => (t.find? name, whole (t.put name value)) := by
  constructor
  · intro before name old after value h
    rw [find?_of_entries ht h, put_of_entries ht h]
  · intro name value hm
    rw [find?_eq_none_iff.mpr hm, put_of_not_mem hm]
    rfl

theorem refusing (t : Table α) (item : Item) (whole : Table α → σ) :
    t.Refusing item whole fun name value => do return whole (← Template.add item t name value) := by
  constructor
  · intro name value hm
    rw [Template.add_of_mem hm]
    exact ⟨rfl, rfl⟩
  · intro name value hm
    rw [Template.add_of_not_mem hm]
    rfl

theorem Distinct.setting (ht : t.Distinct) (item : Item) (whole : Table α → σ) :
    t.Setting item whole fun name value =>
      if t.contains name then .ok (whole (t.put name value)) else .error (.notFound item name) := by
  constructor
  · intro before name old after value h
    rw [if_pos (contains_iff_mem_names.mpr (mem_names_of_entries h)), put_of_entries ht h]
  · intro name value hm
    rw [contains_eq_false_iff.mpr hm, if_neg Bool.false_ne_true]
    exact ⟨rfl, rfl⟩

theorem Distinct.draining (ht : t.Distinct) (whole : Table α → σ) :
    t.Draining whole fun ns =>
      ((t.split (Namespace.owns ns)).1, whole (t.split (Namespace.owns ns)).2) := by
  intro ns
  refine ⟨_, _, rfl, ?_⟩
  rw [List.partition_eq_filter_filter, split_fst ht, split_snd]
  rfl

end Table

/-- An addition that may be refused is an event of the table. -/
theorem settle_add {α σ : Type} (table : Table α) (whole : Table α → σ) (item : Item)
    (name : String) (value : α) :
    settle (whole table) (do return whole (← Template.add item table name value)) =
      whole ((Table.Event.add name value).on table) := by
  rw [Template.add, Table.Event.on]
  cases table.add? name value <;> rfl

/-! ## Resources -/

/-- Applies work on a resource to the one written inline, if there is one. -/
def PropertyValue.onInline (f : Resource → Resource) : PropertyValue → PropertyValue
  | .plain value => .plain value
  | .nested id r => .nested id (f r)

namespace Resource

/-- The resource was made from one without properties by giving it properties and taking them
away. What is written inline in it was made in the same way. -/
inductive Made : Resource → Prop where
  | blank (r : Resource) : Made { r with properties := .empty }
  | put {r : Resource} (hr : Made r) (name : String) {value : PropertyValue}
      (hvalue : ∀ id m, value = .nested id m → Made m) : Made (r.putProperty name value).2
  | remove {r : Resource} (hr : Made r) (name : String) : Made (r.removeProperty name).2

/-- At no depth are there two properties of one name. -/
inductive Sound : Resource → Prop where
  | intro {r : Resource} (distinct : r.properties.Distinct)
      (inline : ∀ name id m, (name, PropertyValue.nested id m) ∈ r.properties.entries → Sound m) :
      Sound r

inductive Operation where
  | put (name : String) (value : PropertyValue)
      (made : ∀ id m, value = .nested id m → m.Made)
  | remove (name : String)
  | inside (name : String) (op : Operation)

namespace Operation

def run : Operation → Resource → Resource
  | put name value _, r => (r.putProperty name value).2
  | remove name, r => (r.removeProperty name).2
  | inside name op, r =>
      { r with properties := r.properties.change name (PropertyValue.onInline op.run) }

def event : Operation → Table.Event PropertyValue
  | put name value _ => .put name value
  | remove name => .remove (· == name)
  | inside name op => .change name (PropertyValue.onInline op.run)

/-- An operation does to the properties what its event says, and nothing else. -/
theorem run_eq (op : Operation) (r : Resource) :
    op.run r = { r with properties := op.event.on r.properties } := by
  cases op <;> rfl

end Operation

theorem Made.inline {r : Resource} (h : r.Made) {name id : String} {m : Resource}
    (hm : (name, PropertyValue.nested id m) ∈ r.properties.entries) : m.Made := by
  induction h with
  | blank r => exact absurd hm List.not_mem_nil
  | put hr other hvalue ih =>
      rcases Table.mem_entries_put hm with hm | hm
      · exact ih hm
      · exact hvalue id m (Prod.ext_iff.mp hm).2.symm
  | remove hr other ih => exact ih (List.mem_filter.mp hm).1

theorem Sound.distinct {r : Resource} (h : r.Sound) : r.properties.Distinct := by
  obtain ⟨hdistinct, -⟩ := h
  exact hdistinct

theorem Made.sound {r : Resource} (h : r.Made) : r.Sound := by
  induction h with
  | blank r => exact .intro List.nodup_nil fun _ _ _ hm => absurd hm List.not_mem_nil
  | put hr name hvalue ih ihvalue =>
      obtain ⟨hdistinct, hinline⟩ := ih
      refine .intro (hdistinct.put name _) fun other id m hm => ?_
      rcases Table.mem_entries_put hm with hm | hm
      · exact hinline other id m hm
      · exact ihvalue id m (Prod.ext_iff.mp hm).2.symm
  | remove hr name ih =>
      obtain ⟨hdistinct, hinline⟩ := ih
      exact .intro (hdistinct.keep _)
        fun other id m hm => hinline other id m (List.mem_filter.mp hm).1

theorem Made.run {r : Resource} (h : r.Made) (op : Operation) : (op.run r).Made := by
  induction op generalizing r with
  | put name value made => exact h.put name made
  | remove name => exact h.remove name
  | inside name op ih =>
      -- The changed inline resource is put in the place of the old one.
      rw [Operation.run, Table.change]
      split
      · next value hvalue =>
          refine h.put name fun id m hm => ?_
          cases value with
          | plain v => cases hm
          | nested other inner =>
              cases hm
              exact ih (h.inline (Table.mem_of_find? hvalue))
      · -- A resource can hold resources, so that it is not by definition what its fields make up.
        obtain ⟨type, metadata, dependsOn, updatePolicy, deletionPolicy, properties⟩ := r
        exact h

def runAll (ops : List Operation) (r : Resource) : Resource := ops.foldl (fun r op => op.run r) r

structure Answers (r : Resource) : Prop where
  found : ∀ name value,
    r.properties.find? name = some value ↔ (name, value) ∈ r.properties.entries
  replacing : r.properties.Replacing (fun properties => { r with properties }) r.putProperty
  removing : r.properties.Removing (fun properties => { r with properties }) r.removeProperty

theorem Sound.answers {r : Resource} (h : r.Sound) : r.Answers where
  found := fun _ _ => h.distinct.find?_eq_some_iff
  replacing := h.distinct.replacing _
  removing := h.distinct.removing _

theorem records_runAll {events : List (Table.Event PropertyValue)} {r : Resource} (hmade : r.Made)
    (h : r.properties.Records events) (ops : List Operation) :
    (runAll ops r).Made ∧
      (runAll ops r).properties.Records (events ++ ops.map Operation.event) := by
  induction ops generalizing events r with
  | nil => exact ⟨hmade, by rwa [List.map_nil, List.append_nil]⟩
  | cons op rest ih =>
      have hproperties : (op.run r).properties = op.event.on r.properties :=
        congrArg Resource.properties (op.run_eq r)
      have hnext := ih (hmade.run op) (hproperties ▸ h.on op.event)
      rwa [List.append_assoc] at hnext

end Resource

/-! ## Templates -/

namespace Template

inductive Operation where
  | addParameter (name : String) (p : Parameter)
  | removeParameter (name : String)
  | removeParametersOf (ns : String)
  | addGroup (g : ParameterGroup)
  | removeGroup (label : String)
  | addResource (id : String) (r : Resource) (made : r.Made)
  | removeResource (id : String)
  | changeResource (id : String) (op : Resource.Operation)
  | addOutput (name : String) (o : Output)
  | removeOutput (name : String)
  | removeOutputsOf (ns : String)

namespace Operation

def run (t : Template) : Operation → Template
  | addParameter name p => settle t (t.addParameter name p)
  | removeParameter name => (t.removeParameter name).2
  | removeParametersOf ns => (t.removeParametersOf ns).2
  | addGroup g => t.addGroup g
  | removeGroup label => (t.removeGroup label).2
  | addResource id r _ => settle t (t.addResource id r)
  | removeResource id => (t.removeResource id).2
  | changeResource id op => ((t.onResource? id fun r => ((), op.run r)).map (·.2)).getD t
  | addOutput name o => settle t (t.addOutput name o)
  | removeOutput name => (t.removeOutput name).2
  | removeOutputsOf ns => (t.removeOutputsOf ns).2

def parameterEvent? : Operation → Option (Table.Event Parameter)
  | addParameter name p => some (.add name p)
  | removeParameter name => some (.remove (· == name))
  | removeParametersOf ns => some (.remove (Namespace.owns ns))
  | _ => none

def resourceEvent? : Operation → Option (Table.Event Resource)
  | addResource id r _ => some (.add id r)
  | removeResource id => some (.remove (· == id))
  | changeResource id op => some (.change id op.run)
  | _ => none

def outputEvent? : Operation → Option (Table.Event Output)
  | addOutput name o => some (.add name o)
  | removeOutput name => some (.remove (· == name))
  | removeOutputsOf ns => some (.remove (Namespace.owns ns))
  | _ => none

/-- What the operation is to the properties of the resource with the id, if that is there. A
resource that is added brings its own properties with it. -/
def follow (id : String) (held : Option (List (Table.Event PropertyValue))) :
    Operation → Option (List (Table.Event PropertyValue))
  | addResource other r _ =>
      if id = other then
        held.or (some (r.properties.entries.map fun entry => .put entry.1 entry.2))
      else held
  | removeResource other => if id == other then none else held
  | changeResource other op => if id = other then held.map (· ++ [op.event]) else held
  | _ => held

def group? : Operation → Option ParameterGroup
  | addGroup g => some g
  | _ => none

def onGroups (groups : List ParameterGroup) : Operation → List ParameterGroup
  | addGroup g => groups ++ [g]
  | removeGroup label => groups.eraseP (·.label == label)
  | _ => groups

/-- An operation does to each part what its event for this part says. -/
theorem run_eq (op : Operation) (t : Template) :
    op.run t = { t with
      parameters := t.parameters.after op.parameterEvent?
      groups := op.onGroups t.groups
      resources := t.resources.after op.resourceEvent?
      outputs := t.outputs.after op.outputEvent? } := by
  cases op with
  | addParameter name p =>
      exact settle_add t.parameters (fun parameters => { t with parameters }) .parameter name p
  | removeParameter name => rfl
  | removeParametersOf ns =>
      exact congrArg (fun parameters => { t with parameters }) (Table.split_snd _ _)
  | addGroup g => rfl
  | removeGroup label => rfl
  | addResource id r made =>
      exact settle_add t.resources (fun resources => { t with resources }) .resource id r
  | removeResource id => rfl
  | changeResource id op =>
      rw [run, onResource?, resourceEvent?, Table.after, Table.Event.on, Table.change]
      cases t.resources.find? id <;> rfl
  | addOutput name o =>
      exact settle_add t.outputs (fun outputs => { t with outputs }) .output name o
  | removeOutput name => rfl
  | removeOutputsOf ns =>
      exact congrArg (fun outputs => { t with outputs }) (Table.split_snd _ _)

/-- No more groups come of an operation than it adds, and those that stay are in their order. -/
theorem onGroups_sublist (groups : List ParameterGroup) (op : Operation) :
    (op.onGroups groups).Sublist (groups ++ [op].filterMap group?) := by
  cases op with
  | addGroup g => exact List.Sublist.refl _
  | removeGroup label => exact List.eraseP_sublist.trans (List.sublist_append_left _ _)
  | _ => exact List.sublist_append_left _ _

end Operation

def runAll (ops : List Operation) (t : Template) : Template := ops.foldl (fun t op => op.run t) t

/-- Each part of the template is what its history has left since the template was new. -/
structure Records (ops : List Operation) (t : Template) : Prop where
  parameters : t.parameters.Records (ops.filterMap Operation.parameterEvent?)
  resources : t.resources.Records (ops.filterMap Operation.resourceEvent?)
  outputs : t.outputs.Records (ops.filterMap Operation.outputEvent?)
  groups : t.groups = ops.foldl Operation.onGroups []
  groupOrder : t.groups.Sublist (ops.filterMap Operation.group?)
  properties : ∀ id, Option.Rel (fun r events => r.Made ∧ r.properties.Records events)
    (t.resources.find? id) (ops.foldl (Operation.follow id) none)

structure Answers (t : Template) : Prop where
  findingParameter : t.parameters.Finding .parameter t.findParameter
  addingParameter : t.parameters.Refusing .parameter (fun parameters => { t with parameters })
    t.addParameter
  removingParameter : t.parameters.Removing (fun parameters => { t with parameters })
    t.removeParameter
  drainingParameters : t.parameters.Draining (fun parameters => { t with parameters })
    t.removeParametersOf
  findingResource : t.resources.Finding .resource t.findResource
  addingResource : t.resources.Refusing .resource (fun resources => { t with resources })
    t.addResource
  removingResource : t.resources.Removing (fun resources => { t with resources }) t.removeResource
  findingOutput : t.outputs.Finding .output t.findOutput
  addingOutput : t.outputs.Refusing .output (fun outputs => { t with outputs }) t.addOutput
  removingOutput : t.outputs.Removing (fun outputs => { t with outputs }) t.removeOutput
  drainingOutputs : t.outputs.Draining (fun outputs => { t with outputs }) t.removeOutputsOf
  removingGroup : ∀ before g after, t.groups = before ++ g :: after →
    (∀ other ∈ before, other.label ≠ g.label) →
      t.removeGroup g.label = (some g, { t with groups := before ++ after })
  missingGroup : ∀ label, (∀ g ∈ t.groups, g.label ≠ label) → t.removeGroup label = (none, t)
  ofResources : ∀ entry ∈ t.resources.entries, entry.2.Sound ∧ entry.2.Answers

theorem records_empty : Records [] {} :=
  ⟨Table.records_empty, Table.records_empty, Table.records_empty, rfl, List.Sublist.refl _,
    fun _ => .none⟩

section Records

variable {ops : List Operation} {t : Template}

/-- What an operation does to a resource of the template, it does to the history that is told of
the resource's properties. -/
theorem Records.follow (h : Records ops t) (op : Operation) (id : String) :
    Option.Rel (fun r events => r.Made ∧ r.properties.Records events)
      ((t.resources.after op.resourceEvent?).find? id)
      (op.follow id (ops.foldl (Operation.follow id) none)) := by
  have hheld := h.properties id
  rw [Table.find?_after]
  generalize t.resources.find? id = held at hheld ⊢
  generalize ops.foldl (Operation.follow id) none = told at hheld ⊢
  cases op with
  | addResource other r made =>
      rw [Operation.resourceEvent?, Option.elim_some, Table.Event.effect, Operation.follow]
      split
      · -- If the id is taken, the addition is refused and the old history goes on.
        cases hheld with
        | none => exact .some ⟨made, made.sound.distinct.records⟩
        | some hr => exact .some hr
      · exact hheld
  | removeResource other =>
      rw [Operation.resourceEvent?, Option.elim_some, Table.Event.effect, Operation.follow]
      split
      · exact .none
      · exact hheld
  | changeResource other op =>
      rw [Operation.resourceEvent?, Option.elim_some, Table.Event.effect, Operation.follow]
      split
      · cases hheld with
        | none => exact .none
        | some hr => exact .some (Resource.records_runAll hr.1 hr.2 [op])
      · exact hheld
  | _ => exact hheld

theorem Records.run (h : Records ops t) (op : Operation) : Records (ops ++ [op]) (op.run t) := by
  rw [Operation.run_eq]
  refine ⟨h.parameters.after op, h.resources.after op, h.outputs.after op, ?_, ?_, fun id => ?_⟩
  · rw [List.foldl_append, ← h.groups]
    rfl
  · rw [List.filterMap_append]
    exact (Operation.onGroups_sublist t.groups op).trans (h.groupOrder.append_right _)
  · rw [List.foldl_append]
    exact h.follow op id

theorem records_runAll (ops : List Operation) : Records ops (runAll ops {}) := by
  induction ops using List.reverseRecOn with
  | nil => exact records_empty
  | append_singleton rest op ih =>
      rw [runAll, List.foldl_append]
      exact ih.run op

theorem Records.made (h : Records ops t) {entry : String × Resource}
    (he : entry ∈ t.resources.entries) : entry.2.Made := by
  have hheld := h.properties entry.1
  rw [Table.find?_of_mem h.resources.distinct he] at hheld
  generalize ops.foldl (Operation.follow entry.1) none = told at hheld
  cases hheld with
  | some hr => exact hr.1

theorem Records.answers (h : Records ops t) : t.Answers where
  findingParameter := h.parameters.distinct.finding .parameter
  addingParameter := t.parameters.refusing .parameter _
  removingParameter := h.parameters.distinct.removing _
  drainingParameters := h.parameters.distinct.draining _
  findingResource := h.resources.distinct.finding .resource
  addingResource := t.resources.refusing .resource _
  removingResource := h.resources.distinct.removing _
  findingOutput := h.outputs.distinct.finding .output
  addingOutput := t.outputs.refusing .output _
  removingOutput := h.outputs.distinct.removing _
  drainingOutputs := h.outputs.distinct.draining _
  removingGroup := fun before g after hsplit hother => by
    have hfind : t.groups.find? (·.label == g.label) = some g := by
      rw [hsplit, List.find?_append, List.find?_eq_none.mpr (by simpa using hother)]
      simp
    have herase : t.groups.eraseP (·.label == g.label) = before ++ after := by
      rw [hsplit, List.eraseP_append_right _ (by simpa using hother),
        List.eraseP_cons_of_pos (by simp)]
    rw [removeGroup, findGroup?, hfind, herase]
  missingGroup := fun label hother => by
    have hfind : t.groups.find? (·.label == label) = none :=
      List.find?_eq_none.mpr (by simpa using hother)
    have herase : t.groups.eraseP (·.label == label) = t.groups :=
      List.eraseP_of_forall_not (by simpa using hother)
    rw [removeGroup, findGroup?, hfind, herase]
  ofResources := fun _ he => ⟨(h.made he).sound, (h.made he).sound.answers⟩

end Records

end Template

/-! ## Environments -/

namespace Environment

inductive Operation where
  | addParameter (name : String) (value : Value)
  | setParameter (name : String) (value : Value)
  | removeParameter (name : String)
  | removeParametersOf (ns : String)
  | register (name filename : String)
  | removeEntry (name : String)

namespace Operation

def run (e : Environment) : Operation → Environment
  | addParameter name value => settle e (e.addParameter name value)
  | setParameter name value => settle e (e.setParameter name value)
  | removeParameter name => (e.removeParameter name).2
  | removeParametersOf ns => (e.removeParametersOf ns).2
  | register name filename => (e.register name filename).2
  | removeEntry name => (e.removeEntry name).2

def parameterEvent? : Operation → Option (Table.Event Value)
  | addParameter name value => some (.add name value)
  | setParameter name value => some (.change name fun _ => value)
  | removeParameter name => some (.remove (· == name))
  | removeParametersOf ns => some (.remove (Namespace.owns ns))
  | _ => none

def registryEvent? : Operation → Option (Table.Event String)
  | register name filename => some (.put name filename)
  | removeEntry name => some (.remove (· == name))
  | _ => none

/-- An operation does to each part what its event for this part says. -/
theorem run_eq (op : Operation) (e : Environment) :
    op.run e = { e with
      parameters := e.parameters.after op.parameterEvent?
      registry := e.registry.after op.registryEvent? } := by
  cases op with
  | addParameter name value =>
      exact settle_add e.parameters (fun parameters => { e with parameters }) _ name value
  | setParameter name value =>
      by_cases hm : name ∈ e.parameters.names
      · obtain ⟨held, hheld⟩ := Table.exists_find? hm
        have hchange : e.parameters.change name (fun _ => value) = e.parameters.put name value := by
          rw [Table.change, hheld]
        rw [run, Environment.setParameter, if_pos (Table.contains_iff_mem_names.mpr hm), ← hchange]
        rfl
      · have hchange : e.parameters.change name (fun _ => value) = e.parameters := by
          rw [Table.change, Table.find?_eq_none_iff.mpr hm]
        rw [run, Environment.setParameter, Table.contains_eq_false_iff.mpr hm,
          if_neg Bool.false_ne_true]
        exact congrArg (fun parameters => { e with parameters }) hchange.symm
  | removeParameter name => rfl
  | removeParametersOf ns =>
      exact congrArg (fun parameters => { e with parameters }) (Table.split_snd _ _)
  | register name filename => rfl
  | removeEntry name => rfl

end Operation

def runAll (ops : List Operation) (e : Environment) : Environment :=
  ops.foldl (fun e op => op.run e) e

/-- Each part of the environment is what its history has left since the environment was new. -/
structure Records (ops : List Operation) (e : Environment) : Prop where
  parameters : e.parameters.Records (ops.filterMap Operation.parameterEvent?)
  registry : e.registry.Records (ops.filterMap Operation.registryEvent?)

structure Answers (e : Environment) : Prop where
  findingParameter : e.parameters.Finding .environmentParameter e.findParameter
  addingParameter : e.parameters.Refusing .environmentParameter
    (fun parameters => { e with parameters }) e.addParameter
  settingParameter : e.parameters.Setting .environmentParameter
    (fun parameters => { e with parameters }) e.setParameter
  removingParameter : e.parameters.Removing (fun parameters => { e with parameters })
    e.removeParameter
  drainingParameters : e.parameters.Draining (fun parameters => { e with parameters })
    e.removeParametersOf
  findingEntry : e.registry.Finding .registryEntry e.findEntry
  registering : e.registry.Replacing (fun registry => { e with registry }) e.register
  removingEntry : e.registry.Removing (fun registry => { e with registry }) e.removeEntry

section Records

variable {ops : List Operation} {e : Environment}

theorem Records.run (h : Records ops e) (op : Operation) : Records (ops ++ [op]) (op.run e) := by
  rw [Operation.run_eq]
  exact ⟨h.parameters.after op, h.registry.after op⟩

theorem records_runAll (ops : List Operation) : Records ops (runAll ops {}) := by
  induction ops using List.reverseRecOn with
  | nil => exact ⟨Table.records_empty, Table.records_empty⟩
  | append_singleton rest op ih =>
      rw [runAll, List.foldl_append]
      exact ih.run op

theorem Records.answers (h : Records ops e) : e.Answers where
  findingParameter := h.parameters.distinct.finding .environmentParameter
  addingParameter := e.parameters.refusing .environmentParameter _
  settingParameter := h.parameters.distinct.setting .environmentParameter _
  removingParameter := h.parameters.distinct.removing _
  drainingParameters := h.parameters.distinct.draining _
  findingEntry := h.registry.distinct.finding .registryEntry
  registering := h.registry.distinct.replacing _
  removingEntry := h.registry.distinct.removing _

end Records

end Environment

/-- This holds after everything that is done to a template, an environment or a resource since it
was new, refused calls among it. In no container there are two entries of one name, and each is
found under its own. The names are those whose insertion has survived, in the order of these
insertions. A name that is taken is refused, or its value is replaced in its place and given back.
What a namespace is drained of makes up with the rest what there was, both in the old order. -/
theorem containers_keep_entries :
    (∀ ops : List Template.Operation,
      (Template.runAll ops {}).Records ops ∧ (Template.runAll ops {}).Answers) ∧
    (∀ ops : List Environment.Operation,
      (Environment.runAll ops {}).Records ops ∧ (Environment.runAll ops {}).Answers) ∧
    ∀ (blank : Resource) (ops : List Resource.Operation),
      let r := Resource.runAll ops { blank with properties := .empty }
      r.properties.Records (ops.map Resource.Operation.event) ∧ r.Sound ∧ r.Answers := by
  refine ⟨fun ops => ?_, fun ops => ?_, fun blank ops => ?_⟩
  · have hrecords := Template.records_runAll ops
    exact ⟨hrecords, hrecords.answers⟩
  · have hrecords := Environment.records_runAll ops
    exact ⟨hrecords, hrecords.answers⟩
  · obtain ⟨hmade, hrecords⟩ :=
      Resource.records_runAll (.blank blank) Table.records_empty ops
    exact ⟨hrecords, hmade.sound, hmade.sound.answers⟩

end RolePlan
