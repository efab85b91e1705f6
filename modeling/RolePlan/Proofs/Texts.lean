import RolePlan.Seed

/-!
# The texts of a tree

Changing the texts of a tree twice comes to one change, and two changes of a tree come out alike
exactly if they agree on each of its texts. So a change leaves a tree as it is exactly if it leaves
all its texts, and the number of texts that it does not leave says so.
-/

namespace RolePlan

namespace Value

theorem mapTextsEntries_eq_map (f : String → String) (entries : List (String × Value)) :
    mapTextsEntries f entries = entries.map fun entry => (entry.1, entry.2.mapTexts f) := by
  induction entries with
  | nil => rfl
  | cons entry rest ih => rw [mapTextsEntries, ih, List.map_cons]

mutual

theorem mapTexts_mapTexts (f g : String → String) : (v : Value) →
    (v.mapTexts f).mapTexts g = v.mapTexts fun text => g (f text)
  | .null => rfl
  | .bool _ => rfl
  | .int _ => rfl
  | .float _ => rfl
  | .string _ => rfl
  | .list items => congrArg list (mapTextsItems_mapTextsItems f g items)
  | .object ⟨entries⟩ =>
      congrArg (fun entries => object ⟨entries⟩) (mapTextsEntries_mapTextsEntries f g entries)

theorem mapTextsItems_mapTextsItems (f g : String → String) : (items : List Value) →
    mapTextsItems g (mapTextsItems f items) = mapTextsItems (fun text => g (f text)) items
  | [] => rfl
  | v :: rest => by
      rw [mapTextsItems, mapTextsItems, mapTextsItems, mapTexts_mapTexts f g v,
        mapTextsItems_mapTextsItems f g rest]

theorem mapTextsEntries_mapTextsEntries (f g : String → String) :
    (entries : List (String × Value)) → mapTextsEntries g (mapTextsEntries f entries) =
      mapTextsEntries (fun text => g (f text)) entries
  | [] => rfl
  | (name, v) :: rest => by
      rw [mapTextsEntries, mapTextsEntries, mapTextsEntries, mapTexts_mapTexts f g v,
        mapTextsEntries_mapTextsEntries f g rest]

end

mutual

@[simp] theorem mapTexts_id : (v : Value) → v.mapTexts (fun text => text) = v
  | .null => rfl
  | .bool _ => rfl
  | .int _ => rfl
  | .float _ => rfl
  | .string _ => rfl
  | .list items => congrArg list (mapTextsItems_id items)
  | .object ⟨entries⟩ => congrArg (fun entries => object ⟨entries⟩) (mapTextsEntries_id entries)

theorem mapTextsItems_id : (items : List Value) → mapTextsItems (fun text => text) items = items
  | [] => rfl
  | v :: rest => by rw [mapTextsItems, mapTexts_id v, mapTextsItems_id rest]

theorem mapTextsEntries_id :
    (entries : List (String × Value)) → mapTextsEntries (fun text => text) entries = entries
  | [] => rfl
  | (name, v) :: rest => by rw [mapTextsEntries, mapTexts_id v, mapTextsEntries_id rest]

end

mutual

/-- Two changes of a tree come out alike exactly if they agree on each of its texts. -/
theorem mapTexts_eq_mapTexts_iff (f g : String → String) : (v : Value) →
    (v.mapTexts f = v.mapTexts g ↔ v.countTexts (fun text => f text != g text) = 0)
  | .null => by simp [mapTexts, countTexts]
  | .bool _ => by simp [mapTexts, countTexts]
  | .int _ => by simp [mapTexts, countTexts]
  | .float _ => by simp [mapTexts, countTexts]
  | .string _ => by simp [mapTexts, countTexts]
  | .list items => by
      rw [mapTexts, mapTexts, list.injEq]
      exact mapTextsItems_eq_mapTextsItems_iff f g items
  | .object ⟨entries⟩ => by
      rw [mapTexts, mapTexts, object.injEq, Table.mk.injEq]
      exact mapTextsEntries_eq_mapTextsEntries_iff f g entries

theorem mapTextsItems_eq_mapTextsItems_iff (f g : String → String) : (items : List Value) →
    (mapTextsItems f items = mapTextsItems g items ↔
      countTextsItems (fun text => f text != g text) items = 0)
  | [] => by simp [mapTextsItems, countTextsItems]
  | v :: rest => by
      rw [mapTextsItems, mapTextsItems, List.cons.injEq, countTextsItems, Nat.add_eq_zero_iff,
        mapTexts_eq_mapTexts_iff f g v, mapTextsItems_eq_mapTextsItems_iff f g rest]

theorem mapTextsEntries_eq_mapTextsEntries_iff (f g : String → String) :
    (entries : List (String × Value)) → (mapTextsEntries f entries = mapTextsEntries g entries ↔
      countTextsEntries (fun text => f text != g text) entries = 0)
  | [] => by simp [mapTextsEntries, countTextsEntries]
  | (name, v) :: rest => by
      rw [mapTextsEntries, mapTextsEntries, List.cons.injEq, Prod.mk.injEq, countTextsEntries,
        Nat.add_eq_zero_iff, mapTexts_eq_mapTexts_iff f g v,
        mapTextsEntries_eq_mapTextsEntries_iff f g rest]
      simp

end

/-- A change leaves a tree as it is exactly if it leaves each of its texts. -/
theorem mapTexts_eq_self_iff (f : String → String) (v : Value) :
    v.mapTexts f = v ↔ v.countTexts (fun text => f text != text) = 0 := by
  rw [← mapTexts_eq_mapTexts_iff f (fun text => text) v, mapTexts_id]

mutual

def texts : Value → List String
  | .string text => [text]
  | .list items => textsItems items
  | .object ⟨entries⟩ => textsEntries entries
  | .null => []
  | .bool _ => []
  | .int _ => []
  | .float _ => []

def textsItems : List Value → List String
  | [] => []
  | v :: rest => texts v ++ textsItems rest

def textsEntries : List (String × Value) → List String
  | [] => []
  | (_, v) :: rest => texts v ++ textsEntries rest

end

mutual

theorem countTexts_eq_countP (test : String → Bool) : (v : Value) →
    v.countTexts test = v.texts.countP test
  | .null => rfl
  | .bool _ => rfl
  | .int _ => rfl
  | .float _ => rfl
  | .string text => by rw [countTexts, texts, List.countP_singleton]
  | .list items => countTextsItems_eq_countP test items
  | .object ⟨entries⟩ => countTextsEntries_eq_countP test entries

theorem countTextsItems_eq_countP (test : String → Bool) : (items : List Value) →
    countTextsItems test items = (textsItems items).countP test
  | [] => rfl
  | v :: rest => by
      rw [countTextsItems, textsItems, List.countP_append, countTexts_eq_countP test v,
        countTextsItems_eq_countP test rest]

theorem countTextsEntries_eq_countP (test : String → Bool) : (entries : List (String × Value)) →
    countTextsEntries test entries = (textsEntries entries).countP test
  | [] => rfl
  | (_, v) :: rest => by
      rw [countTextsEntries, textsEntries, List.countP_append, countTexts_eq_countP test v,
        countTextsEntries_eq_countP test rest]

end

theorem mapTexts_eq_self_iff_forall (f : String → String) (v : Value) :
    v.mapTexts f = v ↔ ∀ text ∈ v.texts, f text = text := by
  rw [mapTexts_eq_self_iff, countTexts_eq_countP, List.countP_eq_zero]
  simp

end Value

namespace Resource

mutual

theorem mapTexts_mapTexts (f g : String → String) : (r : Resource) →
    (r.mapTexts f).mapTexts g = r.mapTexts fun text => g (f text)
  | ⟨type, metadata, dependsOn, updatePolicy, deletionPolicy, ⟨properties⟩⟩ => by
      rw [mapTexts, mapTexts, mapTexts, mapTextsProperties_mapTextsProperties f g properties]

theorem mapTextsProperty_mapTextsProperty (f g : String → String) : (property : PropertyValue) →
    mapTextsProperty g (mapTextsProperty f property) =
      mapTextsProperty (fun text => g (f text)) property
  | .plain v => by rw [mapTextsProperty, mapTextsProperty, mapTextsProperty, v.mapTexts_mapTexts]
  | .nested id r => by
      rw [mapTextsProperty, mapTextsProperty, mapTextsProperty, mapTexts_mapTexts f g r]

theorem mapTextsProperties_mapTextsProperties (f g : String → String) :
    (properties : List (String × PropertyValue)) →
    mapTextsProperties g (mapTextsProperties f properties) =
      mapTextsProperties (fun text => g (f text)) properties
  | [] => rfl
  | (name, property) :: rest => by
      rw [mapTextsProperties, mapTextsProperties, mapTextsProperties,
        mapTextsProperty_mapTextsProperty f g property,
        mapTextsProperties_mapTextsProperties f g rest]

end

mutual

@[simp] theorem mapTexts_id : (r : Resource) → r.mapTexts (fun text => text) = r
  | ⟨type, metadata, dependsOn, updatePolicy, deletionPolicy, ⟨properties⟩⟩ => by
      rw [mapTexts, mapTextsProperties_id properties]

theorem mapTextsProperty_id : (property : PropertyValue) →
    mapTextsProperty (fun text => text) property = property
  | .plain v => by rw [mapTextsProperty, v.mapTexts_id]
  | .nested id r => by rw [mapTextsProperty, mapTexts_id r]

theorem mapTextsProperties_id : (properties : List (String × PropertyValue)) →
    mapTextsProperties (fun text => text) properties = properties
  | [] => rfl
  | (name, property) :: rest => by
      rw [mapTextsProperties, mapTextsProperty_id property, mapTextsProperties_id rest]

end

mutual

/-- Two changes of a resource come out alike exactly if they agree on each of its texts. -/
theorem mapTexts_eq_mapTexts_iff (f g : String → String) : (r : Resource) →
    (r.mapTexts f = r.mapTexts g ↔ r.countTexts (fun text => f text != g text) = 0)
  | ⟨type, metadata, dependsOn, updatePolicy, deletionPolicy, ⟨properties⟩⟩ => by
      rw [mapTexts, mapTexts, countTexts, ← mapTextsProperties_eq_mapTextsProperties_iff]
      simp

theorem mapTextsProperty_eq_mapTextsProperty_iff (f g : String → String) :
    (property : PropertyValue) → (mapTextsProperty f property = mapTextsProperty g property ↔
      countTextsProperty (fun text => f text != g text) property = 0)
  | .plain v => by
      rw [mapTextsProperty, mapTextsProperty, PropertyValue.plain.injEq, countTextsProperty,
        v.mapTexts_eq_mapTexts_iff]
  | .nested id r => by
      rw [mapTextsProperty, mapTextsProperty, PropertyValue.nested.injEq, countTextsProperty,
        mapTexts_eq_mapTexts_iff f g r]
      simp

theorem mapTextsProperties_eq_mapTextsProperties_iff (f g : String → String) :
    (properties : List (String × PropertyValue)) →
    (mapTextsProperties f properties = mapTextsProperties g properties ↔
      countTextsProperties (fun text => f text != g text) properties = 0)
  | [] => by simp [mapTextsProperties, countTextsProperties]
  | (name, property) :: rest => by
      rw [mapTextsProperties, mapTextsProperties, List.cons.injEq, Prod.mk.injEq,
        countTextsProperties, Nat.add_eq_zero_iff,
        mapTextsProperty_eq_mapTextsProperty_iff f g property,
        mapTextsProperties_eq_mapTextsProperties_iff f g rest]
      simp

end

/-- A change leaves a resource as it is exactly if it leaves each of its texts. -/
theorem mapTexts_eq_self_iff (f : String → String) (r : Resource) :
    r.mapTexts f = r ↔ r.countTexts (fun text => f text != text) = 0 := by
  rw [← mapTexts_eq_mapTexts_iff f (fun text => text) r, mapTexts_id]

end Resource

end RolePlan
