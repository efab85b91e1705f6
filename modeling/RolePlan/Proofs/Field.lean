import RolePlan.Document
import RolePlan.Proofs.Value
import RolePlan.Template.Write

/-!
# Fields that are written and read

A field that is set is written and found again; one that is not set is left out and found missing.
The only setting that gets lost is null, which reads like a missing field.
-/

namespace RolePlan

/-! ## Finding a field -/

@[simp] theorem lookup_optionalField (name other : String) (v : Option Value) :
    (optionalField other v).lookup name = if name == other then v else none := by
  cases v with
  | none => simp [optionalField]
  | some v =>
      rw [optionalField, List.lookup_cons, List.lookup_nil]
      cases name == other <;> rfl

@[simp] theorem lookup_optionalText (name other : String) (text : Option String) :
    (optionalText other text).lookup name =
      if name == other then text.map Value.string else none :=
  lookup_optionalField name other _

@[simp] theorem lookup_listField (name other : String) (items : List Value) :
    (listField other items).lookup name =
      if name == other then (if items.isEmpty then none else some (.list items)) else none := by
  cases items with
  | nil => simp [listField]
  | cons item rest =>
      rw [listField, if_neg (by simp), List.lookup_cons, List.lookup_nil]
      cases name == other <;> rfl

@[simp] theorem lookup_mappingField (name other : String) (fields : Table Value) :
    (mappingField other fields).lookup name =
      if name == other then (if fields.isEmpty then none else some (.object fields)) else none := by
  by_cases h : fields.isEmpty = true
  · simp [mappingField, h]
  · rw [mappingField, if_neg h, if_neg h, List.lookup_cons, List.lookup_nil]
    cases name == other <;> rfl

/-! ## Well-formed fields -/

/-- The names of the fields are among these, in this order, and their values are well-formed. -/
structure Fits (names : List String) (fields : List (String × Value)) : Prop where
  names : (fields.map (·.1)).Sublist names
  values : ∀ field ∈ fields, field.2.WellFormed

namespace Fits

variable {names others : List String} {fields more : List (String × Value)}

theorem cons {v : Value} (hv : v.WellFormed) (name : String) (h : Fits names fields) :
    Fits (name :: names) ((name, v) :: fields) :=
  ⟨h.names.cons_cons name, List.forall_mem_cons.mpr ⟨hv, h.values⟩⟩

theorem append (h : Fits names fields) (hmore : Fits others more) :
    Fits (names ++ others) (fields ++ more) := by
  refine ⟨?_, List.forall_mem_append.mpr ⟨h.values, hmore.values⟩⟩
  rw [List.map_append]
  exact h.names.append hmore.names

theorem nil : Fits [] [] := ⟨List.Sublist.slnil, by simp⟩

theorem optionalField {v : Option Value} (h : ∀ w ∈ v, w.WellFormed) (name : String) :
    Fits [name] (optionalField name v) := by
  cases v with
  | none => exact ⟨List.nil_sublist _, by simp [RolePlan.optionalField]⟩
  | some v => exact nil.cons (h v rfl) name

theorem optionalText (text : Option String) (name : String) :
    Fits [name] (optionalText name text) :=
  optionalField (by cases text <;> simp) name

theorem listField {items : List Value} (h : ∀ v ∈ items, v.WellFormed) (name : String) :
    Fits [name] (listField name items) := by
  cases items with
  | nil => exact ⟨List.nil_sublist _, by simp [RolePlan.listField]⟩
  | cons item rest => exact nil.cons (Value.wellFormed_list_iff.mpr h) name

theorem mappingField {fields : Table Value} (h : (Value.object fields).WellFormed)
    (name : String) : Fits [name] (mappingField name fields) := by
  rw [RolePlan.mappingField]
  split
  · exact ⟨List.nil_sublist _, by simp⟩
  · exact nil.cons h name

theorem wellFormed (h : Fits names fields) (hnodup : names.Nodup) :
    (Value.object ⟨fields⟩).WellFormed :=
  Value.wellFormed_object_iff.mpr ⟨hnodup.sublist h.names, h.values⟩

end Fits

/-! ## Reading a field -/

namespace Document.Entry

variable {e : Entry} {field : String}

theorem value?_of_find? {v : Option Value} (h : e.fields.find? field = v) (hv : v ≠ some .null) :
    e.value? field = v := by
  rw [value?, h]
  match v, hv with
  | none, _ => rfl
  | some .null, hv => exact absurd rfl hv
  | some (.bool _), _ => rfl
  | some (.int _), _ => rfl
  | some (.float _), _ => rfl
  | some (.string _), _ => rfl
  | some (.list _), _ => rfl
  | some (.object _), _ => rfl

theorem value?_ne_null (e : Entry) (field : String) : e.value? field ≠ some .null := by
  cases hf : e.fields.find? field with
  | none => simp [value?, hf]
  | some v => cases v <;> simp [value?, hf]

theorem text?_of_find? {text : Option String} (h : e.fields.find? field = text.map .string) :
    e.text? field = .ok text := by
  rw [text?, value?_of_find? h (by cases text <;> simp)]
  cases text <;> rfl

theorem text_of_find? {text : String} (h : e.fields.find? field = some (.string text)) :
    e.text field = .ok text := by
  have hsome : e.text? field = .ok (some text) := text?_of_find? h
  rw [Entry.text, hsome]
  rfl

theorem bool?_of_find? {b : Option Bool} (h : e.fields.find? field = b.map .bool) :
    e.bool? field = .ok b := by
  rw [bool?, value?_of_find? h (by cases b <;> simp)]
  cases b <;> rfl

theorem list_of_find? {items : List Value} (h : e.fields.find? field = some (.list items)) :
    e.list field = .ok items := by
  rw [Entry.list, value?_of_find? h (by simp)]

theorem list_of_find?_listField {items : List Value}
    (h : e.fields.find? field = if items.isEmpty then none else some (.list items)) :
    e.list field = .ok items := by
  cases items with
  | nil =>
      rw [Entry.list, value?_of_find? h (by simp)]
      rfl
  | cons item rest => exact list_of_find? h

theorem mapping_of_find? {fields : Table Value}
    (h : e.fields.find? field = if fields.isEmpty then none else some (.object fields)) :
    e.mapping field = .ok fields.entries := by
  obtain ⟨entries⟩ := fields
  cases entries with
  | nil =>
      rw [Entry.mapping, value?_of_find? h (by simp [Table.isEmpty])]
      rfl
  | cons entry rest =>
      rw [Entry.mapping, value?_of_find? h (by simp [Table.isEmpty])]
      rfl

end Document.Entry

end RolePlan
