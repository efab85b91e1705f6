import Mathlib.Data.List.Basic
import RolePlan.Proofs.Portable

/-!
# Parameters that are looked up

A value tree looks up a parameter wherever a field named `get_param` holds its name, or a list that
begins with it. Changing the texts of a tree changes the names that are looked up with all others.
What a role looks up in the plan it was added to lies in its own namespace, or comes from the values
that were fixed for it.
-/

namespace RolePlan

namespace Value

def target? : Value → Option String
  | .string name => some name
  | .list (.string name :: _) => some name
  | _ => none

mutual

def lookups : Value → List String
  | .null => []
  | .bool _ => []
  | .int _ => []
  | .float _ => []
  | .string _ => []
  | .list items => lookupsItems items
  | .object ⟨entries⟩ => lookupsEntries entries

def lookupsItems : List Value → List String
  | [] => []
  | v :: rest => lookups v ++ lookupsItems rest

def lookupsEntries : List (String × Value) → List String
  | [] => []
  | (name, v) :: rest =>
      (if name = "get_param" then v.target?.toList else []) ++ lookups v ++ lookupsEntries rest

end

theorem target?_mapTexts (f : String → String) (v : Value) :
    (v.mapTexts f).target? = v.target?.map f := by
  cases v with
  | object fields => rfl
  | list items =>
      cases items with
      | nil => rfl
      | cons item rest =>
          cases item with
          | object fields => rfl
          | _ => rfl
  | _ => rfl

mutual

/-- Names that are looked up change like all other texts. -/
theorem lookups_mapTexts (f : String → String) : (v : Value) →
    (v.mapTexts f).lookups = v.lookups.map f
  | .null => rfl
  | .bool _ => rfl
  | .int _ => rfl
  | .float _ => rfl
  | .string _ => rfl
  | .list items => lookupsItems_mapTextsItems f items
  | .object ⟨entries⟩ => lookupsEntries_mapTextsEntries f entries

theorem lookupsItems_mapTextsItems (f : String → String) : (items : List Value) →
    lookupsItems (mapTextsItems f items) = (lookupsItems items).map f
  | [] => rfl
  | v :: rest => by
      rw [mapTextsItems, lookupsItems, lookupsItems, lookups_mapTexts f v,
        lookupsItems_mapTextsItems f rest, List.map_append]

theorem lookupsEntries_mapTextsEntries (f : String → String) :
    (entries : List (String × Value)) →
    lookupsEntries (mapTextsEntries f entries) = (lookupsEntries entries).map f
  | [] => rfl
  | (name, v) :: rest => by
      rw [mapTextsEntries, lookupsEntries, lookupsEntries, lookups_mapTexts f v,
        lookupsEntries_mapTextsEntries f rest, target?_mapTexts, List.map_append, List.map_append]
      by_cases hname : name = "get_param"
      · rw [if_pos hname, if_pos hname, Option.toList_map]
      · rw [if_neg hname, if_neg hname, List.map_nil]

end

theorem mem_lookupsEntries_iff {entries : List (String × Value)} {name : String} :
    name ∈ lookupsEntries entries ↔ ∃ entry ∈ entries,
      (entry.1 = "get_param" ∧ entry.2.target? = some name) ∨ name ∈ entry.2.lookups := by
  induction entries with
  | nil => simp [lookupsEntries]
  | cons entry rest ih =>
      rw [lookupsEntries, List.mem_append, List.mem_append, ih, List.exists_mem_cons_iff]
      refine or_congr_left (or_congr_left ?_)
      by_cases hname : entry.1 = "get_param"
      · simp [hname]
      · simp [hname]

/-- Whatever a field looks up, the whole object does. -/
theorem mem_lookups_of_mem {fields : Table Value} {entry : String × Value}
    (he : entry ∈ fields.entries) {name : String} (h : name ∈ entry.2.lookups) :
    name ∈ (object fields).lookups :=
  mem_lookupsEntries_iff.mpr ⟨entry, he, .inr h⟩

theorem mem_lookups_of_subset {fields more : Table Value}
    (h : fields.entries ⊆ more.entries) {name : String} (hname : name ∈ (object fields).lookups) :
    name ∈ (object more).lookups := by
  obtain ⟨entry, he, hentry⟩ := mem_lookupsEntries_iff.mp hname
  exact mem_lookupsEntries_iff.mpr ⟨entry, h he, hentry⟩

theorem lookups_lookup (name : String) : (Plan.lookup name).lookups = [name] := by
  simp [Plan.lookup, single, lookups, lookupsEntries, target?]

theorem lookups_attributeOf (id name : String) : (Plan.attributeOf id name).lookups = [] := by
  simp [Plan.attributeOf, single, lookups, lookupsEntries, lookupsItems]

end Value

namespace Resource

def lookups (r : Resource) : List String :=
  r.properties.entries.flatMap fun entry => (propertyValue entry.2).lookups

theorem lookups_mapTexts (f : String → String) {r : Resource} (h : r.IsPlain) :
    (r.mapTexts f).lookups = r.lookups.map f := by
  rw [lookups, lookups, mapTexts_eq, Table.map, List.flatMap_map, List.map_flatMap]
  refine List.flatMap_congr fun entry he => ?_
  have hplain := h entry he
  generalize entry.2 = property at hplain
  cases property with
  | plain v => exact Value.lookups_mapTexts f v
  | nested id member => cases hplain

/-- What the properties of a member look up, the group does. -/
theorem mem_lookups_of_memberProperties {r : Resource} (hplain : r.IsPlain) {name : String}
    (h : name ∈ (Value.object r.memberProperties).lookups) : name ∈ r.lookups := by
  rcases memberProperties_of_isPlain hplain with hnone | ⟨fields, hdefinition, hproperties⟩
  · rw [hnone] at h
    cases h
  · exact List.mem_flatMap.mpr ⟨_, hdefinition, Value.mem_lookups_of_mem hproperties h⟩

end Resource

def Template.lookups (t : Template) : List String :=
  t.resources.entries.flatMap (·.2.lookups) ++ t.outputs.entries.flatMap (·.2.value.lookups)

theorem Template.mem_lookups_iff {t : Template} {name : String} :
    name ∈ t.lookups ↔ (∃ entry ∈ t.resources.entries, name ∈ entry.2.lookups) ∨
      ∃ entry ∈ t.outputs.entries, name ∈ entry.2.value.lookups := by
  rw [lookups, List.mem_append, List.mem_flatMap, List.mem_flatMap]

end RolePlan
