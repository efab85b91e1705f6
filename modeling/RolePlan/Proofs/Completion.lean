import RolePlan.Proofs.Role
import RolePlan.Proofs.Seed

/-!
# Completing a plan from a seed

What is copied from a seed is what the plan lacks of it, and it goes behind what is there. So a part
that was copied is complete, and which parts are copied counts, but neither their order nor how
often it is done.
-/

namespace RolePlan

namespace Table

universe u v

variable {α : Type u} {β : Type v}

def missing (t : Table α) (entries : List (String × β)) : List (String × β) :=
  entries.filter fun entry => !t.contains entry.1

def complete (t : Table α) (entries : List (String × α)) : Table α := t.extend (t.missing entries)

@[simp] theorem missing_nil (t : Table α) : t.missing ([] : List (String × β)) = [] := rfl

@[simp] theorem complete_nil (t : Table α) : t.complete [] = t := t.extend_nil

theorem missing_cons_of_mem {t : Table α} {entry : String × β} (h : entry.1 ∈ t.names)
    (rest : List (String × β)) : t.missing (entry :: rest) = t.missing rest :=
  List.filter_cons_of_neg (by simpa using contains_iff_mem_names.mpr h)

theorem missing_cons_of_not_mem {t : Table α} {entry : String × β} (h : entry.1 ∉ t.names)
    (rest : List (String × β)) : t.missing (entry :: rest) = entry :: t.missing rest :=
  List.filter_cons_of_pos (by simpa using contains_eq_false_iff.mpr h)

/-- A new entry is no obstacle to entries of other names. -/
theorem missing_extend_of_not_mem {name : String} {entries : List (String × β)}
    (h : name ∉ entries.map (·.1)) (t : Table α) (value : α) :
    (t.extend [(name, value)]).missing entries = t.missing entries := by
  refine List.filter_congr fun entry he => ?_
  have hne : entry.1 ≠ name := fun heq => h (heq ▸ List.mem_map_of_mem he)
  rw [Bool.not_eq_eq_eq_not, Bool.not_not, Bool.eq_iff_iff, contains_iff_mem_names,
    contains_iff_mem_names, names_extend, List.mem_append, List.map_singleton, List.mem_singleton,
    or_iff_left hne]

theorem complete_singleton_of_mem {t : Table α} {entry : String × α} (h : entry.1 ∈ t.names) :
    t.complete [entry] = t := by
  rw [complete, missing_cons_of_mem h, missing_nil, extend_nil]

theorem complete_singleton_of_not_mem {t : Table α} {entry : String × α} (h : entry.1 ∉ t.names) :
    t.complete [entry] = t.extend [entry] := by
  rw [complete, missing_cons_of_not_mem h, missing_nil]

/-- Entries of different names are taken over one by one. -/
theorem complete_cons {entry : String × α} {rest : List (String × α)}
    (hrest : entry.1 ∉ rest.map (·.1)) (t : Table α) :
    t.complete (entry :: rest) = (t.complete [entry]).complete rest := by
  by_cases h : entry.1 ∈ t.names
  · rw [complete_singleton_of_mem h, complete, missing_cons_of_mem h, complete]
  · rw [complete_singleton_of_not_mem h, complete, missing_cons_of_not_mem h, complete,
      missing_extend_of_not_mem hrest, extend_extend, List.singleton_append]

/-- Nothing is missing once a table is complete. -/
theorem missing_complete (t : Table α) (entries : List (String × α)) :
    (t.complete entries).missing entries = [] := by
  refine List.filter_eq_nil_iff.mpr fun entry he => ?_
  rw [Bool.not_eq_true', Bool.not_eq_false, contains_iff_mem_names, complete, names_extend,
    List.mem_append]
  by_cases hm : entry.1 ∈ t.names
  · exact .inl hm
  · have hmissing : entry ∈ t.missing entries :=
      List.mem_filter.mpr ⟨he, by simpa using contains_eq_false_iff.mpr hm⟩
    exact .inr (List.mem_map_of_mem hmissing)

end Table

namespace Seed

open Plan (firstValues)

/-! ## Single parts -/

/-- A loop over entries of different names that does step by step what `g` does at once. -/
private theorem foldlM_eq_of_cons {σ α : Type} {f : σ → String × α → Except Error σ}
    {g : σ → List (String × α) → σ} (hnil : ∀ s, g s [] = s)
    (hcons : ∀ s entry rest, entry.1 ∉ rest.map (·.1) →
      ∃ next, f s entry = .ok next ∧ g next rest = g s (entry :: rest))
    {entries : List (String × α)} (h : (entries.map (·.1)).Nodup) (s : σ) :
    entries.foldlM f s = .ok (g s entries) := by
  induction entries generalizing s with
  | nil => exact congrArg Except.ok (hnil s).symm
  | cons entry rest ih =>
      rw [List.map_cons, List.nodup_cons] at h
      obtain ⟨next, hfirst, hnext⟩ := hcons s entry rest h.1
      rw [List.foldlM_cons, hfirst, ← hnext]
      exact ih h.2 next

def topLevelResources (seed : Template) : List (String × Resource) :=
  seed.resources.entries.filter fun entry => !entry.2.isRole

def topLevelParameters (seed : Template) : List (String × Parameter) :=
  seed.parameters.entries.filter fun entry => !(roleParameters seed).contains entry.1

def withResources (seed t : Template) : Template :=
  { t with resources := t.resources.complete (topLevelResources seed) }

def withOutputs (seed t : Template) : Template :=
  { t with outputs := t.outputs.complete seed.outputs.entries }

def withParameters (seed : Template) (target : Template × Environment) : Template × Environment :=
  let (t, e) := target
  ({ t with parameters := t.parameters.complete (topLevelParameters seed) },
    { e with parameters :=
        e.parameters.complete (firstValues (t.parameters.missing (topLevelParameters seed))) })

variable {seed : Template}

theorem addResource_eq {entry : String × Resource} (hrole : entry.2.isRole = false)
    (t : Template) :
    addResource t entry = .ok { t with resources := t.resources.complete [entry] } := by
  rw [addResource, hrole, Bool.false_or]
  by_cases hm : entry.1 ∈ t.resources.names
  · rw [if_pos (Table.contains_iff_mem_names.mpr hm), Table.complete_singleton_of_mem hm]
  · rw [Table.contains_eq_false_iff.mpr hm, if_neg Bool.false_ne_true,
      Template.addResource_of_not_mem hm, Table.complete_singleton_of_not_mem hm]

theorem addOutput_eq (t : Template) (entry : String × Output) :
    addOutput t entry = .ok { t with outputs := t.outputs.complete [entry] } := by
  rw [addOutput]
  by_cases hm : entry.1 ∈ t.outputs.names
  · rw [if_pos (Table.contains_iff_mem_names.mpr hm), Table.complete_singleton_of_mem hm]
  · rw [Table.contains_eq_false_iff.mpr hm, if_neg Bool.false_ne_true,
      Template.addOutput_of_not_mem hm, Table.complete_singleton_of_not_mem hm]

theorem addParameter_eq {excluded : List String} {entry : String × Parameter}
    (hfree : excluded.contains entry.1 = false) (t : Template) (e : Environment) :
    addParameter excluded (t, e) entry =
      .ok ({ t with parameters := t.parameters.complete [entry] },
        { e with parameters :=
            e.parameters.complete (firstValues (t.parameters.missing [entry])) }) := by
  rw [addParameter, hfree, Bool.false_or]
  by_cases hm : entry.1 ∈ t.parameters.names
  · rw [if_pos (Table.contains_iff_mem_names.mpr hm), Table.complete_singleton_of_mem hm,
      Table.missing_cons_of_mem hm, Table.missing_nil, firstValues, List.map_nil,
      Table.complete_nil]
  · rw [Table.contains_eq_false_iff.mpr hm, if_neg Bool.false_ne_true,
      Template.addParameter_of_not_mem hm, Table.complete_singleton_of_not_mem hm,
      Table.missing_cons_of_not_mem hm, Table.missing_nil, firstValues, List.map_singleton]
    simp only [bind, Except.bind]
    by_cases hvalue : entry.1 ∈ e.parameters.names
    · rw [if_pos (Table.contains_iff_mem_names.mpr hvalue),
        Table.complete_singleton_of_mem hvalue]
      rfl
    · rw [Table.contains_eq_false_iff.mpr hvalue, if_neg Bool.false_ne_true,
        Environment.addParameter_of_not_mem hvalue, Table.complete_singleton_of_not_mem hvalue]
      rfl

/-- Names that are not among those of a list are not among those of a part of it. -/
private theorem not_mem_filter {α : Type} {name : String} {entries : List (String × α)}
    (h : name ∉ entries.map (·.1)) (test : String × α → Bool) :
    name ∉ (entries.filter test).map (·.1) :=
  fun hm => h ((List.filter_sublist.map _).subset hm)

theorem addResources_eq (h : seed.resources.Distinct) (t : Template) :
    addResources seed t = .ok (withResources seed t) := by
  refine foldlM_eq_of_cons (g := fun t entries => { t with
    resources := t.resources.complete (entries.filter fun entry => !entry.2.isRole) })
    (fun t => by simp) (fun t entry rest hnew => ?_) h t
  cases hrole : entry.2.isRole with
  | true =>
      rw [List.filter_cons_of_neg (by simp [hrole]), addResource, hrole]
      exact ⟨t, rfl, rfl⟩
  | false =>
      rw [List.filter_cons_of_pos (by simp [hrole]), Table.complete_cons (not_mem_filter hnew _)]
      exact ⟨_, addResource_eq hrole t, rfl⟩

theorem addOutputs_eq (h : seed.outputs.Distinct) (t : Template) :
    addOutputs seed t = .ok (withOutputs seed t) := by
  refine foldlM_eq_of_cons (g := fun t entries =>
    { t with outputs := t.outputs.complete entries })
    (fun t => by simp) (fun t entry rest hnew => ?_) h t
  rw [Table.complete_cons hnew]
  exact ⟨_, addOutput_eq t entry, rfl⟩

theorem addParameters_eq (h : seed.parameters.Distinct) (t : Template) (e : Environment) :
    addParameters seed t e = .ok (withParameters seed (t, e)) := by
  refine foldlM_eq_of_cons (g := fun target entries =>
    let free := entries.filter fun entry => !(roleParameters seed).contains entry.1
    ({ target.1 with parameters := target.1.parameters.complete free },
      { target.2 with parameters :=
          target.2.parameters.complete (firstValues (target.1.parameters.missing free)) }))
    (fun target => by simp [firstValues]) (fun (t, e) entry rest hnew => ?_) h (t, e)
  cases hexcluded : (roleParameters seed).contains entry.1 with
  | true =>
      rw [List.filter_cons_of_neg (by simpa using hexcluded), addParameter, hexcluded]
      exact ⟨(t, e), rfl, rfl⟩
  | false =>
      have hrest := not_mem_filter hnew fun entry => !(roleParameters seed).contains entry.1
      rw [List.filter_cons_of_pos (by simpa using hexcluded)]
      refine ⟨_, addParameter_eq hexcluded t e, ?_⟩
      dsimp only
      rw [← Table.complete_cons hrest]
      by_cases hm : entry.1 ∈ t.parameters.names
      · rw [Table.complete_singleton_of_mem hm, Table.missing_cons_of_mem hm,
          Table.missing_cons_of_mem hm, Table.missing_nil, firstValues, List.map_nil,
          Table.complete_nil]
      · have hnext : entry.1 ∉ (firstValues (t.parameters.missing (rest.filter fun entry =>
            !(roleParameters seed).contains entry.1))).map (·.1) := by
          rw [firstValues, List.map_map]
          exact not_mem_filter hrest _
        have hvalues := Table.complete_cons (show (entry.1, entry.2.initialValue).1 ∉ _ from hnext)
          e.parameters
        rw [Table.complete_singleton_of_not_mem hm, Table.missing_extend_of_not_mem hrest,
          Table.missing_cons_of_not_mem hm, Table.missing_cons_of_not_mem hm, Table.missing_nil,
          firstValues, List.map_singleton, ← hvalues]
        rfl

/-! ## All parts -/

inductive Part where
  | resources
  | parameters
  | outputs
  deriving DecidableEq

def Part.copy (seed : Template) (target : Template × Environment) :
    Part → Except Error (Template × Environment)
  | .resources => do return (← addResources seed target.1, target.2)
  | .parameters => addParameters seed target.1 target.2
  | .outputs => do return (← addOutputs seed target.1, target.2)

def copyParts (seed : Template) (parts : List Part) (target : Template × Environment) :
    Except Error (Template × Environment) :=
  parts.foldlM (Part.copy seed) target

def chosen {α : Type} (parts : List Part) (part : Part) (entries : List α) : List α :=
  if part ∈ parts then entries else []

/-- The template and the environment with all that they lacked of some parts of a seed. -/
def completed (seed : Template) (parts : List Part) (target : Template × Environment) :
    Template × Environment :=
  let (t, e) := target
  let declared := chosen parts .parameters (topLevelParameters seed)
  ({ t with
      resources := t.resources.complete (chosen parts .resources (topLevelResources seed))
      parameters := t.parameters.complete declared
      outputs := t.outputs.complete (chosen parts .outputs seed.outputs.entries) },
    { e with parameters := e.parameters.complete (firstValues (t.parameters.missing declared)) })

section Chosen

variable {α : Type} {part which : Part} {parts : List Part} {entries : List α}

@[simp] theorem chosen_nil : chosen [] which entries = [] := if_neg List.not_mem_nil

@[simp] theorem chosen_cons_self : chosen (part :: parts) part entries = entries :=
  if_pos List.mem_cons_self

theorem chosen_cons_of_ne (h : which ≠ part) :
    chosen (part :: parts) which entries = chosen parts which entries := by
  simp only [chosen, List.mem_cons, or_iff_right h]

/-- A part that is complete lacks nothing, whether it is chosen or not. -/
@[simp] theorem missing_complete_chosen {entries : List (String × α)} (t : Table α) :
    (t.complete entries).missing (chosen parts which entries) = [] := by
  rw [chosen]
  split
  · exact t.missing_complete entries
  · rfl

@[simp] theorem complete_complete_chosen {entries : List (String × α)} (t : Table α) :
    (t.complete entries).complete (chosen parts which entries) = t.complete entries := by
  rw [Table.complete, missing_complete_chosen, Table.extend_nil]

end Chosen

@[simp] theorem firstValues_nil : firstValues [] = [] := rfl

theorem completed_nil (seed : Template) (target : Template × Environment) :
    completed seed [] target = target := by
  simp [completed]

theorem completed_cons (seed : Template) (part : Part) (parts : List Part)
    (target : Template × Environment) :
    completed seed (part :: parts) target =
      completed seed parts (completed seed [part] target) := by
  cases part <;>
    simp (disch := decide) only [completed, chosen_cons_self, chosen_cons_of_ne, chosen_nil,
      Table.complete_nil, Table.missing_nil, complete_complete_chosen, missing_complete_chosen,
      firstValues_nil]

theorem Part.copy_eq (h : seed.Distinct) (target : Template × Environment) (part : Part) :
    part.copy seed target = .ok (completed seed [part] target) := by
  obtain ⟨t, e⟩ := target
  have hchosen : completed seed [part] (t, e) = match part with
      | .resources => (withResources seed t, e)
      | .parameters => withParameters seed (t, e)
      | .outputs => (withOutputs seed t, e) := by
    cases part <;>
      simp (disch := decide) only [completed, chosen_cons_self, chosen_cons_of_ne, chosen_nil,
        Table.complete_nil, Table.missing_nil, firstValues_nil] <;> rfl
  rw [hchosen]
  cases part with
  | resources => rw [copy, addResources_eq h.resources]; rfl
  | parameters => exact addParameters_eq h.parameters t e
  | outputs => rw [copy, addOutputs_eq h.outputs]; rfl

/-- Whatever parts are copied, in whatever order and however often, they are complete afterwards. -/
theorem copyParts_eq (h : seed.Distinct) (parts : List Part) (target : Template × Environment) :
    copyParts seed parts target = .ok (completed seed parts target) := by
  induction parts generalizing target with
  | nil => exact congrArg Except.ok (completed_nil seed target).symm
  | cons part rest ih =>
      rw [copyParts, List.foldlM_cons, Part.copy_eq h target part, completed_cons seed part rest]
      exact ih _

theorem completed_congr (seed : Template) {parts others : List Part}
    (h : ∀ part, part ∈ others ↔ part ∈ parts) : completed seed others = completed seed parts := by
  have hchosen {α : Type} (which : Part) (entries : List α) :
      chosen others which entries = chosen parts which entries := if_congr (h which) rfl rfl
  funext target
  simp only [completed, hchosen]

theorem completed_append (seed : Template) (parts others : List Part)
    (target : Template × Environment) :
    completed seed (parts ++ others) target =
      completed seed others (completed seed parts target) := by
  induction parts generalizing target with
  | nil => rw [List.nil_append, completed_nil]
  | cons part rest ih => rw [List.cons_append, completed_cons, ih, completed_cons seed part rest]

theorem mem_roleParameters_iff {seed : Template} {name : String} :
    name ∈ roleParameters seed ↔ ∃ entry ∈ seed.resources.entries, entry.2.isRole = true ∧
      ((∃ property ∈ entry.2.properties.entries, ∃ v, property.2 = .plain v ∧
          v.lookedUp? = some name) ∨
        ∃ argument ∈ entry.2.memberProperties.entries, argument.2.lookedUp? = some name) := by
  have hplain (property : PropertyValue) :
      (Resource.plain? property).bind Value.lookedUp? = some name ↔
        ∃ v, property = .plain v ∧ v.lookedUp? = some name := by
    cases property <;> simp [Resource.plain?]
  simp only [roleParameters, roles, List.mem_flatMap, List.mem_filter, Resource.roleLookups,
    List.mem_append, List.mem_filterMap, hplain, and_assoc]

/-- Copying from a seed never fails. All that is there stays, in its place, and behind it comes what
was missing, in the order of the seed: the resources that stand for no role, the outputs, and the
parameters that no role looks up. A parameter that is new has its initial value, unless it had a
value before. It makes no difference in which order parts are copied, and none if they are copied
again. -/
theorem copies_missing {seed : Template} (h : seed.Distinct) (parts : List Part) (t : Template)
    (e : Environment) :
    let declared := if .parameters ∈ parts then t.parameters.missing (topLevelParameters seed)
      else []
    let u : Template := { t with
      resources := t.resources.extend
        (if .resources ∈ parts then t.resources.missing (topLevelResources seed) else [])
      parameters := t.parameters.extend declared
      outputs := t.outputs.extend
        (if .outputs ∈ parts then t.outputs.missing seed.outputs.entries else []) }
    let values := declared.map fun entry => (entry.1, entry.2.default.getD (.string ""))
    let f : Environment := { e with
      parameters := e.parameters.extend (e.parameters.missing values) }
    copyParts seed parts (t, e) = .ok (u, f) ∧
      (∀ others, (∀ part, part ∈ others ↔ part ∈ parts) →
        copyParts seed others (t, e) = .ok (u, f)) ∧
      (∀ again, (∀ part ∈ again, part ∈ parts) → copyParts seed again (u, f) = .ok (u, f)) ∧
      ∀ name, name ∈ roleParameters seed ↔ ∃ entry ∈ seed.resources.entries,
        entry.2.isRole = true ∧
          ((∃ property ∈ entry.2.properties.entries, ∃ v, property.2 = .plain v ∧
              v.lookedUp? = some name) ∨
            ∃ argument ∈ entry.2.memberProperties.entries, argument.2.lookedUp? = some name) := by
  have hmissing {α β : Type} (table : Table α) (which : Part) (entries : List (String × β)) :
      (if which ∈ parts then table.missing entries else []) =
        table.missing (chosen parts which entries) := by
    rw [chosen]
    split <;> rfl
  intro declared u values f
  have hresult : (u, f) = completed seed parts (t, e) := by
    simp only [u, f, values, declared, hmissing]
    rfl
  rw [hresult]
  refine ⟨copyParts_eq h parts (t, e), fun others hothers => ?_, fun again hagain => ?_,
    fun _ => mem_roleParameters_iff⟩
  · rw [copyParts_eq h, completed_congr seed hothers]
  · have hsame : ∀ part, part ∈ parts ++ again ↔ part ∈ parts := fun part =>
      List.mem_append.trans (or_iff_left_of_imp (hagain part))
    rw [copyParts_eq h, ← completed_append, completed_congr seed hsame]

/-- A seed with a role, which looks up one parameter by itself and one in its member. -/
def surroundingSeed : Template :=
  let lookup (target : Value) : Value := .single "get_param" target
  let member : Value := .object ⟨[("type", .string "Tuskar::compute"),
    ("properties", .single "image" (lookup (.list [.string "image", .string "id"])))]⟩
  { parameters := ⟨[("count", { type := "number" }), ("image", { type := "string" }),
      ("net", { type := "string", default := some (.string "ctlplane") }),
      ("dns", { type := "string" }), ("ntp", { type := "string" }),
      ("mtu", { type := "number" })]⟩
    resources := ⟨[
      ("compute", {
        type := Resource.groupType
        properties := ⟨[(Resource.countName, .plain (lookup (.string "count"))),
          (Resource.definitionName, .plain member)]⟩ }),
      ("network", { type := "T" }), ("router", { type := "T" })]⟩
    outputs := ⟨[("address", { value := .null })]⟩ }

theorem copies_missing_surroundingSeed :
    let t : Template :=
      { parameters := ⟨[("ntp", { type := "number" })]⟩, resources := ⟨[("router", default)]⟩ }
    let e : Environment := { parameters := ⟨[("dns", .string "8.8.8.8")]⟩ }
    surroundingSeed.Distinct ∧
      ∃ u f, copyParts surroundingSeed [.outputs, .parameters, .resources, .parameters] (t, e) =
          .ok (u, f) ∧
        u.parameters.names = ["ntp", "net", "dns", "mtu"] ∧
        u.resources.names = ["router", "network"] ∧ u.outputs.names = ["address"] ∧
        f.parameters = ⟨[("dns", .string "8.8.8.8"), ("net", .string "ctlplane"),
          ("mtu", .string "")]⟩ ∧
        copyParts surroundingSeed [.resources, .parameters, .outputs] (t, e) = .ok (u, f) ∧
        copyParts surroundingSeed [.parameters] (u, f) = .ok (u, f) := by
  intro t e
  have hdistinct : surroundingSeed.Distinct := ⟨by decide, by decide, by decide⟩
  obtain ⟨hcopy, horder, hagain, -⟩ :=
    copies_missing hdistinct [.outputs, .parameters, .resources, .parameters] t e
  exact ⟨hdistinct, _, _, hcopy, by decide +kernel, by decide +kernel, by decide +kernel,
    rfl, horder _ fun part => by cases part <;> decide,
    hagain _ (by decide)⟩

end Seed

end RolePlan
