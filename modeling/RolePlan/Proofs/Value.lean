import RolePlan.Proofs.Table
import RolePlan.Seed

/-!
# Well-formed value trees

A value tree is well-formed if none of its objects gives a name twice. All trees that a program
holds are of this kind, since objects are maps; the tables here can be otherwise, so that it has to
be said. Changing texts in a tree keeps the names of its fields.
-/

namespace RolePlan.Value

mutual

/-- No object in the tree gives a name twice. -/
def WellFormed : Value → Prop
  | .null => True
  | .bool _ => True
  | .int _ => True
  | .float _ => True
  | .string _ => True
  | .list items => WellFormedItems items
  | .object ⟨entries⟩ => (entries.map (·.1)).Nodup ∧ WellFormedEntries entries

def WellFormedItems : List Value → Prop
  | [] => True
  | v :: rest => WellFormed v ∧ WellFormedItems rest

def WellFormedEntries : List (String × Value) → Prop
  | [] => True
  | (_, v) :: rest => WellFormed v ∧ WellFormedEntries rest

end

theorem wellFormedItems_iff {items : List Value} :
    WellFormedItems items ↔ ∀ v ∈ items, v.WellFormed := by
  induction items with
  | nil => simp [WellFormedItems]
  | cons v rest ih => rw [WellFormedItems, ih, List.forall_mem_cons]

theorem wellFormedEntries_iff {entries : List (String × Value)} :
    WellFormedEntries entries ↔ ∀ entry ∈ entries, entry.2.WellFormed := by
  induction entries with
  | nil => simp [WellFormedEntries]
  | cons entry rest ih => rw [WellFormedEntries, ih, List.forall_mem_cons]

@[simp] theorem wellFormed_string (text : String) : (string text).WellFormed := trivial

@[simp] theorem wellFormed_list_iff {items : List Value} :
    (list items).WellFormed ↔ ∀ v ∈ items, v.WellFormed := wellFormedItems_iff

theorem wellFormed_object_iff {fields : Table Value} :
    (object fields).WellFormed ↔ fields.Distinct ∧ ∀ entry ∈ fields.entries, entry.2.WellFormed :=
  and_congr_right fun _ => wellFormedEntries_iff

theorem WellFormed.single {v : Value} (h : v.WellFormed) (name : String) :
    (single name v).WellFormed :=
  ⟨by simp, h, trivial⟩

/-! ## Changing texts -/

theorem map_fst_mapTextsEntries (f : String → String) (entries : List (String × Value)) :
    (mapTextsEntries f entries).map (·.1) = entries.map (·.1) := by
  induction entries with
  | nil => rfl
  | cons entry rest ih => simp only [mapTextsEntries, List.map_cons, ih]

mutual

theorem WellFormed.mapTexts (f : String → String) : {v : Value} → v.WellFormed →
    (v.mapTexts f).WellFormed
  | .null, _ => trivial
  | .bool _, _ => trivial
  | .int _, _ => trivial
  | .float _, _ => trivial
  | .string _, _ => trivial
  | .list _, h => WellFormedItems.mapTexts f h
  | .object ⟨entries⟩, h =>
      ⟨(map_fst_mapTextsEntries f entries).symm ▸ h.1, WellFormedEntries.mapTexts f h.2⟩

theorem WellFormedItems.mapTexts (f : String → String) : {items : List Value} →
    WellFormedItems items → WellFormedItems (mapTextsItems f items)
  | [], _ => trivial
  | _ :: _, h => ⟨WellFormed.mapTexts f h.1, WellFormedItems.mapTexts f h.2⟩

theorem WellFormedEntries.mapTexts (f : String → String) : {entries : List (String × Value)} →
    WellFormedEntries entries → WellFormedEntries (mapTextsEntries f entries)
  | [], _ => trivial
  | _ :: _, h => ⟨WellFormed.mapTexts f h.1, WellFormedEntries.mapTexts f h.2⟩

end

end RolePlan.Value
