import Mathlib.Data.List.Forall2
import RolePlan.Proofs.Sameness

/-!
# Trees with their keys in other orders

Two trees are alike if one is the other with the entries of its objects in other orders, at any
depth; lists keep theirs. Alike mappings have alike values under the same names, and alike trees
are the same.
-/

namespace RolePlan

/-! ## Reorderings -/

namespace Value

mutual

/-- The second tree is the first with the entries of its objects in other orders, at any depth. -/
def Reorders : Value → Value → Prop
  | .list items, w => ∃ others, w = .list others ∧ ReordersItems items others
  | .object ⟨entries⟩, w =>
      ∃ changed others, w = .object ⟨others⟩ ∧ ReordersEntries entries changed ∧
        changed.Perm others
  | .null, w => w = .null
  | .bool b, w => w = .bool b
  | .int n, w => w = .int n
  | .float x, w => w = .float x
  | .string text, w => w = .string text

def ReordersItems : List Value → List Value → Prop
  | [], others => others = []
  | v :: rest, others => ∃ w more, others = w :: more ∧ Reorders v w ∧ ReordersItems rest more

/-- The entries stay in their places, and only their values are reordered. -/
def ReordersEntries : List (String × Value) → List (String × Value) → Prop
  | [], others => others = []
  | (name, v) :: rest, others =>
      ∃ w more, others = (name, w) :: more ∧ Reorders v w ∧ ReordersEntries rest more

end

theorem map_fst_of_reordersEntries {entries others : List (String × Value)}
    (h : ReordersEntries entries others) : others.map (·.1) = entries.map (·.1) := by
  induction entries generalizing others with
  | nil => rw [h]
  | cons entry rest ih =>
      obtain ⟨w, more, rfl, -, hrest⟩ := h
      rw [List.map_cons, List.map_cons, ih hrest]

mutual

theorem WellFormed.reorders : {v w : Value} → v.WellFormed → v.Reorders w → w.WellFormed
  | .null, _, _, rfl => trivial
  | .bool _, _, _, rfl => trivial
  | .int _, _, _, rfl => trivial
  | .float _, _, _, rfl => trivial
  | .string _, _, _, rfl => trivial
  | .list _, _, hv, ⟨_, rfl, h⟩ => WellFormedItems.reorders hv h
  | .object ⟨_⟩, _, hv, ⟨changed, _, rfl, h, hperm⟩ => by
      have hnames := map_fst_of_reordersEntries h ▸ hv.1
      have hvalues := wellFormedEntries_iff.mp (WellFormedEntries.reorders hv.2 h)
      exact ⟨(hperm.map _).nodup_iff.mp hnames,
        wellFormedEntries_iff.mpr fun entry he => hvalues entry (hperm.mem_iff.mpr he)⟩

theorem WellFormedItems.reorders : {items others : List Value} → WellFormedItems items →
    ReordersItems items others → WellFormedItems others
  | [], _, _, rfl => trivial
  | _ :: _, _, hv, ⟨_, _, rfl, h, hrest⟩ => ⟨hv.1.reorders h, WellFormedItems.reorders hv.2 hrest⟩

theorem WellFormedEntries.reorders : {entries others : List (String × Value)} →
    WellFormedEntries entries → ReordersEntries entries others → WellFormedEntries others
  | [], _, _, rfl => trivial
  | (_, _) :: _, _, hv, ⟨_, _, rfl, h, hrest⟩ =>
      ⟨hv.1.reorders h, WellFormedEntries.reorders hv.2 hrest⟩

end

/-- The first tree is well-formed, and the second is the first with keys in other orders. -/
structure Alike (v w : Value) : Prop where
  wellFormed : v.WellFormed
  reorders : v.Reorders w

/-- Lists that are alike item by item. -/
theorem forall₂_alike_of_reordersItems {items others : List Value}
    (hv : ∀ v ∈ items, v.WellFormed) (h : ReordersItems items others) :
    List.Forall₂ Alike items others := by
  induction items generalizing others with
  | nil =>
      rw [h]
      exact .nil
  | cons v rest ih =>
      obtain ⟨w, more, rfl, hfirst, hrest⟩ := h
      rw [List.forall_mem_cons] at hv
      exact .cons ⟨hv.1, hfirst⟩ (ih hv.2 hrest)

theorem lookup_of_reordersEntries {entries others : List (String × Value)}
    (hv : ∀ entry ∈ entries, entry.2.WellFormed) (h : ReordersEntries entries others)
    (name : String) : Option.Rel Alike (entries.lookup name) (others.lookup name) := by
  induction entries generalizing others with
  | nil =>
      rw [h]
      exact .none
  | cons entry rest ih =>
      obtain ⟨key, v⟩ := entry
      obtain ⟨w, more, rfl, hfirst, hrest⟩ := h
      rw [List.forall_mem_cons] at hv
      rw [List.lookup_cons, List.lookup_cons]
      split
      · exact .some ⟨hv.1, hfirst⟩
      · exact ih hv.2 hrest

end Value

/-- Two mappings with the same entries up to the order of keys, at any depth. -/
def Table.Alike (f g : Table Value) : Prop := (Value.object f).Alike (.object g)

namespace Table.Alike

variable {f g : Table Value}

/-- Under each name, alike mappings have alike values. -/
theorem find? (h : f.Alike g) (name : String) :
    Option.Rel Value.Alike (f.find? name) (g.find? name) := by
  obtain ⟨hv, changed, others, heq, hchanged, hperm⟩ := h
  cases heq
  obtain ⟨hdistinct, hvalues⟩ := Value.wellFormed_object_iff.mp hv
  have hrel := Value.lookup_of_reordersEntries hvalues hchanged name
  have hnames : (Table.mk changed).Distinct := by
    rw [Table.Distinct, Table.names, Value.map_fst_of_reordersEntries hchanged]
    exact hdistinct
  have hfind := Table.find?_eq_of_perm hnames hperm.symm name
  rw [Table.find?, Table.find?] at hfind
  rw [Table.find?, Table.find?, hfind]
  exact hrel

theorem names (h : f.Alike g) : f.names.Perm g.names := by
  obtain ⟨-, changed, others, heq, hchanged, hperm⟩ := h
  cases heq
  rw [Table.names, ← Value.map_fst_of_reordersEntries hchanged]
  exact hperm.map _

theorem distinct (h : f.Alike g) : f.Distinct := (Value.wellFormed_object_iff.mp h.wellFormed).1

theorem distinct_right (h : f.Alike g) : g.Distinct := h.names.nodup_iff.mp h.distinct

theorem size_keep (h : f.Alike g) (test : String → Bool) :
    (f.keep test).size = (g.keep test).size := by
  have hsize (t : Table Value) : (t.keep test).size = (t.names.filter test).length := by
    rw [← Table.names_keep, Table.names, List.length_map, Table.size]
  rw [hsize, hsize]
  exact (h.names.filter test).length_eq

theorem size (h : f.Alike g) : f.size = g.size := by
  have hlength := h.names.length_eq
  rwa [Table.names, Table.names, List.length_map, List.length_map] at hlength

/-- Each entry of a mapping has its counterpart. -/
theorem exists_of_mem (h : f.Alike g) {name : String} {v : Value} (he : (name, v) ∈ f.entries) :
    ∃ w, g.find? name = some w ∧ v.Alike w := by
  have hrel := h.find? name
  rw [Table.find?_of_mem h.distinct he] at hrel
  cases hfind : g.find? name with
  | none =>
      rw [hfind] at hrel
      cases hrel
  | some w =>
      rw [hfind] at hrel
      cases hrel with
      | some hw => exact ⟨w, rfl, hw⟩

/-- Conversely, each entry of the second mapping comes from the first. -/
theorem exists_of_mem_right (h : f.Alike g) {name : String} {w : Value}
    (he : (name, w) ∈ g.entries) : ∃ v, f.find? name = some v ∧ v.Alike w := by
  have hrel := h.find? name
  rw [Table.find?_of_mem h.distinct_right he] at hrel
  cases hfind : f.find? name with
  | none =>
      rw [hfind] at hrel
      cases hrel
  | some v =>
      rw [hfind] at hrel
      cases hrel with
      | some hv => exact ⟨v, rfl, hv⟩

end Table.Alike

/-! ## Equality up to order -/

namespace Value

mutual

/-- A tree is the same with its keys in another order. -/
theorem same_of_reorders : {v w : Value} → v.WellFormed → v.Reorders w → v.same w = true
  | .null, _, _, rfl => rfl
  | .bool _, _, _, rfl => by simp [same]
  | .int _, _, _, rfl => by simp [same]
  | .float x, _, _, rfl => x.same_self
  | .string _, _, _, rfl => by simp [same]
  | .list _, _, hv, ⟨_, rfl, h⟩ => by
      rw [same]
      exact sameItems_of_reorders hv h
  | .object ⟨entries⟩, _, hv, ⟨changed, others, rfl, h, hperm⟩ => by
      have halike : Table.Alike ⟨entries⟩ ⟨others⟩ := ⟨hv, changed, others, rfl, h, hperm⟩
      rw [same, Bool.and_eq_true, beq_iff_eq]
      exact ⟨halike.size, sameEntries_of_reorders hv.2 h fun entry he =>
        Table.find?_of_mem halike.distinct_right (hperm.mem_iff.mp he)⟩

theorem sameItems_of_reorders : {items others : List Value} → WellFormedItems items →
    ReordersItems items others → sameItems items others = true
  | [], _, _, rfl => rfl
  | _ :: _, _, hv, ⟨_, _, rfl, h, hrest⟩ => by
      rw [sameItems, same_of_reorders hv.1 h, sameItems_of_reorders hv.2 hrest, Bool.and_self]

theorem sameEntries_of_reorders : {entries changed : List (String × Value)} →
    WellFormedEntries entries → ReordersEntries entries changed →
    {all : List (String × Value)} →
    (∀ entry ∈ changed, all.lookup entry.1 = some entry.2) → sameEntries entries all = true
  | [], _, _, _, _, _ => rfl
  | (name, v) :: rest, _, hv, ⟨w, more, rfl, h, hrest⟩, all, hall => by
      rw [List.forall_mem_cons] at hall
      rw [sameEntries, hall.1]
      dsimp only
      rw [same_of_reorders hv.1 h, sameEntries_of_reorders hv.2 hrest hall.2, Bool.and_self]

end

theorem Alike.same {v w : Value} (h : v.Alike w) : v.same w = true :=
  same_of_reorders h.wellFormed h.reorders

theorem sameOptional_of_rel {v w : Option Value} (h : Option.Rel Alike v w) :
    sameOptional v w = true := by
  cases h with
  | none => rfl
  | some h => exact h.same

end Value

namespace Table.Alike

variable {f g : Table Value} {α : Type}

/-- What alike entries become is the same, entry by entry. -/
theorem sameBy_map (h : f.Alike g) (same : α → α → Bool) (content : Value → α)
    (hsame : ∀ entry ∈ f.entries, ∀ w, entry.2.Alike w →
      same (content entry.2) (content w) = true) :
    (f.map content).sameBy same (g.map content) = true := by
  have hsize (t : Table Value) : (t.map content).size = t.size := List.length_map _
  rw [sameBy, Bool.and_eq_true, beq_iff_eq, hsize, hsize, List.all_eq_true]
  refine ⟨h.size, fun entry he => ?_⟩
  obtain ⟨old, ho, rfl⟩ := List.mem_map.mp he
  obtain ⟨w, hw, halike⟩ := h.exists_of_mem ho
  rw [Table.find?_map, hw]
  exact hsame old ho w halike

end Table.Alike

end RolePlan
