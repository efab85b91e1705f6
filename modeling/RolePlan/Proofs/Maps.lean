import RolePlan.Description.Read
import RolePlan.Proofs.Loading
import RolePlan.Proofs.Rearrangement

/-!
# Descriptions that are read

A TOML document grows by entries whose names are new to their tables, or by putting a table in the
place of another. So no table of it gives a name twice, and neither does a map of values that is
read from it. What holds of a plan whose description sets proper values therefore holds of every
plan whose description was read from a text.
-/

namespace RolePlan

namespace Toml

namespace Node

mutual

/-- No table in the tree gives a name twice. -/
def WellFormed : Node → Prop
  | .string _ => True
  | .int _ => True
  | .float _ => True
  | .nonFinite => True
  | .tooLarge => True
  | .bool _ => True
  | .moment _ => True
  | .array _ items => WellFormedItems items
  | .table _ ⟨fields⟩ => (fields.map (·.1)).Nodup ∧ WellFormedEntries fields

def WellFormedItems : List Node → Prop
  | [] => True
  | item :: rest => WellFormed item ∧ WellFormedItems rest

def WellFormedEntries : List (String × Node) → Prop
  | [] => True
  | (_, field) :: rest => WellFormed field ∧ WellFormedEntries rest

end

/-- No name is given twice, in the table itself or below. -/
def Sound (fields : Table Node) : Prop :=
  fields.Distinct ∧ ∀ entry ∈ fields.entries, entry.2.WellFormed

theorem wellFormedItems_iff {items : List Node} :
    WellFormedItems items ↔ ∀ item ∈ items, item.WellFormed := by
  induction items with
  | nil => simp [WellFormedItems]
  | cons item rest ih => rw [WellFormedItems, ih, List.forall_mem_cons]

theorem wellFormedEntries_iff {entries : List (String × Node)} :
    WellFormedEntries entries ↔ ∀ entry ∈ entries, entry.2.WellFormed := by
  induction entries with
  | nil => simp [WellFormedEntries]
  | cons entry rest ih => rw [WellFormedEntries, ih, List.forall_mem_cons]

theorem wellFormed_array_iff {grows : Bool} {items : List Node} :
    (array grows items).WellFormed ↔ ∀ item ∈ items, item.WellFormed := wellFormedItems_iff

theorem wellFormed_table_iff {origin : Origin} {fields : Table Node} :
    (table origin fields).WellFormed ↔ Sound fields :=
  and_congr_right fun _ => wellFormedEntries_iff

namespace Sound

variable {fields : Table Node}

theorem empty : Sound .empty := ⟨List.nodup_nil, by simp⟩

theorem put (h : Sound fields) (key : String) {node : Node} (hnode : node.WellFormed) :
    Sound (fields.put key node) := by
  refine ⟨h.1.put key node, fun entry he => ?_⟩
  rcases Table.mem_entries_put he with he | rfl
  · exact h.2 entry he
  · exact hnode

theorem find? (h : Sound fields) {key : String} {node : Node}
    (hfind : fields.find? key = some node) : node.WellFormed := h.2 _ (Table.mem_of_find? hfind)

end Sound

/-! ## Growing -/

def Keeps (change : Table Node → Except Fault (Table Node)) : Prop :=
  ∀ fields changed, Sound fields → change fields = .ok changed → Sound changed

theorem keeps_alter (walker : Origin) {change : Table Node → Except Fault (Table Node)}
    (hchange : Keeps change) (path : List String) : Keeps (alter walker change path) := by
  induction path with
  | nil => exact hchange
  | cons key path ih =>
      intro fields changed hfields h
      rw [alter] at h
      split at h
      · obtain ⟨inner, hinner, h⟩ := Proofs.bind_eq_ok h
        cases h
        exact hfields.put key (wellFormed_table_iff.mpr (ih _ _ .empty hinner))
      · next origin inner hfind =>
          split at h
          · obtain ⟨inner', hinner, h⟩ := Proofs.bind_eq_ok h
            cases h
            have hold := wellFormed_table_iff.mp (hfields.find? hfind)
            exact hfields.put key (wellFormed_table_iff.mpr (ih _ _ hold hinner))
          · cases h
      · next items hfind =>
          split at h
          · next origin inner hlast =>
              split at h
              · cases h
              · obtain ⟨inner', hinner, h⟩ := Proofs.bind_eq_ok h
                cases h
                have hitems := wellFormed_array_iff.mp (hfields.find? hfind)
                have hold := wellFormed_table_iff.mp (hitems _ (List.mem_of_getLast? hlast))
                refine hfields.put key (wellFormed_array_iff.mpr ?_)
                rw [List.forall_mem_append]
                exact ⟨fun item hm => hitems item (List.dropLast_subset _ hm),
                  by simpa using wellFormed_table_iff.mpr (ih _ _ hold hinner)⟩
          · cases h
      · cases h

theorem keeps_set (path : List String) (key : String) {value : Node} (hvalue : value.WellFormed) :
    Keeps (set path key value) := by
  refine keeps_alter .dotted (fun fields changed hfields h => ?_) path
  split at h
  · next hadd =>
      cases h
      rw [Table.add?] at hadd
      split at hadd
      · cases hadd
      · next hnew =>
          cases hadd
          rw [Table.contains_iff_mem_names] at hnew
          exact ⟨hfields.1.extend hnew value, Table.forall_mem_extend hfields.2 hvalue⟩
  · cases h

theorem keeps_openTable (path : List String) (key : String) : Keeps (openTable path key) := by
  refine keeps_alter .implied (fun fields changed hfields h => ?_) path
  split at h
  · cases h
    exact hfields.put key (wellFormed_table_iff.mpr .empty)
  · next inner hfind =>
      cases h
      have hinner := wellFormed_table_iff.mp (hfields.find? hfind)
      exact hfields.put key (wellFormed_table_iff.mpr hinner)
  · cases h

theorem keeps_openItem (path : List String) (key : String) : Keeps (openItem path key) := by
  have hfresh : (table .header .empty).WellFormed := wellFormed_table_iff.mpr .empty
  refine keeps_alter .implied (fun fields changed hfields h => ?_) path
  split at h
  · cases h
    exact hfields.put key (wellFormed_array_iff.mpr (by simpa using hfresh))
  · next items hfind =>
      cases h
      have hitems := wellFormed_array_iff.mp (hfields.find? hfind)
      refine hfields.put key (wellFormed_array_iff.mpr ?_)
      rw [List.forall_mem_append]
      exact ⟨hitems, by simpa using hfresh⟩
  · cases h

end Node

/-! ## Reading -/

theorem wellFormed_of_float? {text : List Char} {node : Node} (h : float? text = some node) :
    node.WellFormed := by
  rw [float?] at h
  dsimp only at h
  split at h
  · cases h
    trivial
  · obtain ⟨decimal, -, rfl⟩ := Option.map_eq_some_iff.mp h
    split <;> trivial

theorem wellFormed_of_scalar {text : List Char} {node : Node} (h : scalar text = .ok node) :
    node.WellFormed := by
  rw [scalar] at h
  split at h
  · cases h
    trivial
  · split at h
    · cases h
      trivial
    · split at h
      · next n _ =>
          cases h
          unfold ofInt
          split <;> trivial
      · split at h
        · next hfloat =>
            cases h
            exact wellFormed_of_float? hfloat
        · split at h
          · cases h
            trivial
          · cases h

/-- What is read as a value with this much fuel gives no name twice. -/
structure Reads (fuel : Nat) : Prop where
  value : ∀ depth text node rest, value fuel depth text = .ok (node, rest) → node.WellFormed
  items : ∀ depth done text node rest, (∀ item ∈ done, item.WellFormed) →
    items fuel depth done text = .ok (node, rest) → node.WellFormed
  pairs : ∀ depth done text node rest, Node.Sound done →
    pairs fuel depth done text = .ok (node, rest) → node.WellFormed

namespace Reads

variable {fuel depth : Nat} {text rest : List Char} {node : Node} (ih : Reads fuel)
include ih

/-- Texts and scalars hold no table; lists and tables come from the other two functions. -/
theorem value_succ (h : Toml.value (fuel + 1) depth text = .ok (node, rest)) :
    node.WellFormed := by
  have htext : ∀ {read : Except Fault (String × List Char)},
      (read >>= fun found => .ok (Node.string found.1, found.2)) = .ok (node, rest) →
        node.WellFormed := by
    intro read hread
    obtain ⟨_, -, hread⟩ := Proofs.bind_eq_ok hread
    cases hread
    trivial
  unfold Toml.value at h
  split at h
  · exact htext h
  · exact htext h
  · exact htext h
  · exact htext h
  · split at h
    · cases h
    · exact ih.items _ _ _ _ _ (by simp) h
  · split at h
    · cases h
    · exact ih.pairs _ _ _ _ _ .empty h
  · obtain ⟨_, hscalar, h⟩ := Proofs.bind_eq_ok h
    cases h
    exact wellFormed_of_scalar hscalar

theorem items_succ {done : List Node} (hdone : ∀ item ∈ done, item.WellFormed)
    (h : Toml.items (fuel + 1) depth done text = .ok (node, rest)) : node.WellFormed := by
  have hlist : ∀ {items : List Node}, (∀ item ∈ items, item.WellFormed) →
      (Node.array false items.reverse).WellFormed := fun hitems =>
    Node.wellFormed_array_iff.mpr fun item hm => hitems item (List.mem_reverse.mp hm)
  unfold Toml.items at h
  obtain ⟨after, -, h⟩ := Proofs.bind_eq_ok h
  split at h
  · cases h
    exact hlist hdone
  · obtain ⟨⟨item, left⟩, hitem, h⟩ := Proofs.bind_eq_ok h
    have hmore := List.forall_mem_cons.mpr ⟨ih.value _ _ _ _ hitem, hdone⟩
    obtain ⟨_, -, h⟩ := Proofs.bind_eq_ok h
    split at h
    · exact ih.items _ _ _ _ _ hmore h
    · obtain ⟨_, -, h⟩ := Proofs.bind_eq_ok h
      cases h
      exact hlist hmore

theorem pairs_succ {done : Table Node} (hdone : Node.Sound done)
    (h : Toml.pairs (fuel + 1) depth done text = .ok (node, rest)) : node.WellFormed := by
  unfold Toml.pairs at h
  obtain ⟨after, -, h⟩ := Proofs.bind_eq_ok h
  split at h
  · cases h
    exact Node.wellFormed_table_iff.mpr hdone
  · obtain ⟨⟨⟨path, name⟩, _⟩, -, h⟩ := Proofs.bind_eq_ok h
    obtain ⟨_, -, h⟩ := Proofs.bind_eq_ok h
    obtain ⟨⟨item, left⟩, hitem, h⟩ := Proofs.bind_eq_ok h
    obtain ⟨more, hset, h⟩ := Proofs.bind_eq_ok h
    have hmore := Node.keeps_set path name (ih.value _ _ _ _ hitem) _ _ hdone hset
    obtain ⟨_, -, h⟩ := Proofs.bind_eq_ok h
    split at h
    · exact ih.pairs _ _ _ _ _ hmore h
    · obtain ⟨_, -, h⟩ := Proofs.bind_eq_ok h
      cases h
      exact Node.wellFormed_table_iff.mpr hmore

end Reads

theorem reads (fuel : Nat) : Reads fuel := by
  induction fuel with
  | zero => constructor <;> intros <;> contradiction
  | succ fuel ih =>
      exact ⟨fun _ _ _ _ => ih.value_succ, fun _ _ _ _ _ => ih.items_succ,
        fun _ _ _ _ _ => ih.pairs_succ⟩

namespace Document

theorem sound_of_readLine {d next : Document} (hd : Node.Sound d.root) {text rest : List Char}
    (h : d.readLine text = .ok (next, rest)) : Node.Sound next.root := by
  unfold readLine at h
  split at h
  · obtain ⟨⟨⟨path, name⟩, _⟩, -, h⟩ := Proofs.bind_eq_ok h
    obtain ⟨_, -, h⟩ := Proofs.bind_eq_ok h
    obtain ⟨_, -, h⟩ := Proofs.bind_eq_ok h
    obtain ⟨root, hroot, h⟩ := Proofs.bind_eq_ok h
    cases h
    exact Node.keeps_openItem path name _ _ hd hroot
  · obtain ⟨⟨⟨path, name⟩, _⟩, -, h⟩ := Proofs.bind_eq_ok h
    obtain ⟨_, -, h⟩ := Proofs.bind_eq_ok h
    obtain ⟨root, hroot, h⟩ := Proofs.bind_eq_ok h
    cases h
    exact Node.keeps_openTable path name _ _ hd hroot
  · obtain ⟨⟨⟨path, name⟩, _⟩, -, h⟩ := Proofs.bind_eq_ok h
    obtain ⟨_, -, h⟩ := Proofs.bind_eq_ok h
    obtain ⟨⟨item, _⟩, hitem, h⟩ := Proofs.bind_eq_ok h
    obtain ⟨root, hroot, h⟩ := Proofs.bind_eq_ok h
    cases h
    have hset := Node.keeps_set path name ((reads _).value _ _ _ _ hitem)
    exact Node.keeps_alter .implied hset d.place _ _ hd hroot

theorem sound_of_readLines {fuel : Nat} {d last : Document} (hd : Node.Sound d.root)
    {text : List Char} (h : readLines fuel d text = .ok last) : Node.Sound last.root := by
  induction fuel generalizing d text with
  | zero =>
      cases h
      exact hd
  | succ fuel ih =>
      rw [readLines] at h
      obtain ⟨after, -, h⟩ := Proofs.bind_eq_ok h
      split at h
      · cases h
        exact hd
      · obtain ⟨⟨next, _⟩, hline, h⟩ := Proofs.bind_eq_ok h
        obtain ⟨_, -, h⟩ := Proofs.bind_eq_ok h
        exact ih (sound_of_readLine hd hline) h

end Document

/-- No table of a document that was read gives a name twice. -/
theorem sound_of_read {text : String} {document : Table Node} (h : read text = .ok document) :
    Node.Sound document := by
  obtain ⟨last, hlast, h⟩ := Proofs.bind_eq_ok h
  cases h
  exact Document.sound_of_readLines .empty hlast

/-! ## Values -/

namespace Node

theorem map_fst_of_toEntries? {fields : List (String × Node)} {entries : List (String × Value)}
    (h : toEntries? fields = some entries) : entries.map (·.1) = fields.map (·.1) := by
  induction fields generalizing entries with
  | nil =>
      cases h
      rfl
  | cons field rest ih =>
      obtain ⟨name, node⟩ := field
      rw [toEntries?] at h
      obtain ⟨value, -, h⟩ := Option.bind_eq_some_iff.mp h
      obtain ⟨more, hmore, h⟩ := Option.bind_eq_some_iff.mp h
      cases h
      rw [List.map_cons, List.map_cons, ih hmore]

/-- Sorting keeps all entries. -/
theorem wellFormed_sorted {entries : List (String × Value)} (hnodup : (entries.map (·.1)).Nodup)
    (h : ∀ entry ∈ entries, entry.2.WellFormed) : (Value.object (sorted entries)).WellFormed := by
  have hperm : (sorted entries).entries.Perm entries := List.mergeSort_perm _ _
  exact Value.wellFormed_object_iff.mpr ⟨(hperm.map _).nodup_iff.mpr hnodup,
    fun entry he => h entry (hperm.mem_iff.mp he)⟩

mutual

theorem wellFormed_toValue? : {node : Node} → node.WellFormed → {v : Value} →
    node.toValue? = some v → v.WellFormed
  | .string _, _, v, h => by cases h; trivial
  | .int n, _, v, h => by
      rw [toValue?] at h
      split at h
      · cases h
        trivial
      · cases h
  | .float _, _, v, h => by cases h; trivial
  | .nonFinite, _, v, h => by cases h; trivial
  | .tooLarge, _, v, h => by cases h
  | .bool _, _, v, h => by cases h; trivial
  | .moment _, _, v, h => by
      cases h
      exact Value.WellFormed.single (Value.wellFormed_string _) _
  | .array _ _, hnode, v, h => by
      rw [toValue?] at h
      obtain ⟨values, hvalues, rfl⟩ := Option.map_eq_some_iff.mp h
      exact Value.wellFormed_list_iff.mpr (wellFormed_toValues? hnode hvalues)
  | .table _ ⟨_⟩, hnode, v, h => by
      rw [toValue?] at h
      obtain ⟨entries, hentries, rfl⟩ := Option.map_eq_some_iff.mp h
      exact wellFormed_sorted (map_fst_of_toEntries? hentries ▸ hnode.1)
        (wellFormed_toEntries? hnode.2 hentries)

theorem wellFormed_toValues? : {items : List Node} → WellFormedItems items →
    {values : List Value} → toValues? items = some values → ∀ v ∈ values, v.WellFormed
  | [], _, values, h => by
      cases h
      simp
  | _ :: _, hitems, values, h => by
      rw [toValues?] at h
      obtain ⟨value, hvalue, h⟩ := Option.bind_eq_some_iff.mp h
      obtain ⟨more, hmore, h⟩ := Option.bind_eq_some_iff.mp h
      cases h
      exact List.forall_mem_cons.mpr
        ⟨wellFormed_toValue? hitems.1 hvalue, wellFormed_toValues? hitems.2 hmore⟩

theorem wellFormed_toEntries? : {fields : List (String × Node)} → WellFormedEntries fields →
    {entries : List (String × Value)} → toEntries? fields = some entries →
      ∀ entry ∈ entries, entry.2.WellFormed
  | [], _, entries, h => by
      cases h
      simp
  | (_, _) :: _, hfields, entries, h => by
      rw [toEntries?] at h
      obtain ⟨value, hvalue, h⟩ := Option.bind_eq_some_iff.mp h
      obtain ⟨more, hmore, h⟩ := Option.bind_eq_some_iff.mp h
      cases h
      exact List.forall_mem_cons.mpr
        ⟨wellFormed_toValue? hfields.1 hvalue, wellFormed_toEntries? hfields.2 hmore⟩

end

theorem sound_of_entries? {node : Node} (hnode : node.WellFormed) {fields : Table Node}
    (h : node.entries? = some fields) : Sound fields := by
  cases node with
  | table origin _ =>
      cases h
      exact wellFormed_table_iff.mp hnode
  | moment text =>
      cases h
      exact ⟨List.nodup_singleton _, by simp [WellFormed]⟩
  | _ => cases h

end Node

end Toml

namespace Description

open Toml (Node)

/-! ## Descriptions -/

theorem wellFormed_values? {node : Node} (hnode : node.WellFormed) {values : Table Value}
    (h : values? node = some values) : (Value.object values).WellFormed := by
  obtain ⟨fields, hfields, h⟩ := Option.bind_eq_some_iff.mp h
  obtain ⟨entries, hentries, h⟩ := Option.bind_eq_some_iff.mp h
  cases h
  obtain ⟨hdistinct, hsound⟩ := Node.sound_of_entries? hnode hfields
  exact Node.wellFormed_sorted (Node.map_fst_of_toEntries? hentries ▸ hdistinct)
    (Node.wellFormed_toEntries? (Node.wellFormedEntries_iff.mpr hsound) hentries)

namespace Record

def Sound (r : Record) : Prop := ∀ entry ∈ r.fields.entries, entry.2.WellFormed

theorem sound_of {name : String} {known : List String} {node : Node} (hnode : node.WellFormed)
    {r : Record} (h : of name known node = .ok r) : r.Sound := by
  unfold of at h
  split at h
  · next items =>
      split at h
      · cases h
      · cases h
        exact fun entry he => Node.wellFormed_array_iff.mp hnode _ (List.of_mem_zip he).2
  · split at h
    · cases h
    · next fields hfields =>
        split at h
        · cases h
          exact (Node.sound_of_entries? hnode hfields).2
        · cases h

theorem Sound.read? {r : Record} (hr : r.Sound) {α : Type} {read : Node → Option α} {field : String}
    {found : Option α} (h : r.read? read field = .ok found) :
    ∀ a ∈ found, ∃ node : Node, node.WellFormed ∧ read node = some a := by
  rw [Record.read?] at h
  split at h
  · cases h
    simp
  · next node hfind =>
      split at h
      · next value hvalue =>
          cases h
          rintro a ⟨⟩
          exact ⟨node, hr _ (Table.mem_of_find? hfind), hvalue⟩
      · cases h

theorem Sound.read {r : Record} (hr : r.Sound) {α : Type} {read : Node → Option α} {field : String}
    {a : α} (h : r.read read field = .ok a) :
    ∃ node : Node, node.WellFormed ∧ read node = some a := by
  obtain ⟨found, hfound, h⟩ := Proofs.bind_eq_ok h
  cases found with
  | none => cases h
  | some value =>
      cases h
      exact hr.read? hfound _ rfl

theorem Sound.wellFormed_values {r : Record} (hr : r.Sound) {field : String}
    {values : Option (Table Value)} (h : r.read? values? field = .ok values) :
    (Value.object (values.getD .empty)).WellFormed := by
  cases values with
  | none => exact Value.wellFormed_object_iff.mpr ⟨List.nodup_nil, by simp⟩
  | some t =>
      obtain ⟨node, hnode, hvalues⟩ := hr.read? h t rfl
      exact wellFormed_values? hnode hvalues

end Record

theorem maps_of_ofRole {node : Node} (hnode : node.WellFormed) {r : Role}
    (h : ofRole node = .ok r) : r.Maps := by
  obtain ⟨record, hrecord, h⟩ := Proofs.bind_eq_ok h
  obtain ⟨name, -, h⟩ := Proofs.bind_eq_ok h
  obtain ⟨version, -, h⟩ := Proofs.bind_eq_ok h
  obtain ⟨template, -, h⟩ := Proofs.bind_eq_ok h
  obtain ⟨filename, -, h⟩ := Proofs.bind_eq_ok h
  obtain ⟨parameters, hparameters, h⟩ := Proofs.bind_eq_ok h
  cases h
  exact (Record.sound_of hnode hrecord).wellFormed_values hparameters

theorem maps_of_ofDocument {document : Table Node} (hdocument : Node.Sound document)
    {d : Description} (h : ofDocument document = .ok d) : d.Maps := by
  obtain ⟨root, hroot, h⟩ := Proofs.bind_eq_ok h
  have hsound := Record.sound_of (Node.wellFormed_table_iff.mpr hdocument) hroot
  obtain ⟨planNode, hplanNode, h⟩ := Proofs.bind_eq_ok h
  obtain ⟨plan, hplan, h⟩ := Proofs.bind_eq_ok h
  obtain ⟨seedNode, -, h⟩ := Proofs.bind_eq_ok h
  obtain ⟨seed, -, h⟩ := Proofs.bind_eq_ok h
  obtain ⟨roleNodes, hroleNodes, h⟩ := Proofs.bind_eq_ok h
  obtain ⟨roles, hroles, h⟩ := Proofs.bind_eq_ok h
  obtain ⟨outputNode, -, h⟩ := Proofs.bind_eq_ok h
  obtain ⟨output, -, h⟩ := Proofs.bind_eq_ok h
  obtain ⟨name, -, h⟩ := Proofs.bind_eq_ok h
  obtain ⟨description, -, h⟩ := Proofs.bind_eq_ok h
  obtain ⟨scaling, -, h⟩ := Proofs.bind_eq_ok h
  obtain ⟨parameters, hparameters, h⟩ := Proofs.bind_eq_ok h
  cases h
  obtain ⟨_, hnode, hsome⟩ := hsound.read hplanNode
  cases hsome
  refine ⟨(Record.sound_of hnode hplan).wellFormed_values hparameters, fun r hr => ?_⟩
  obtain ⟨node, hin, hrole⟩ := Proofs.exists_of_mapM_eq_ok hroles r hr
  cases roleNodes with
  | none => cases hin
  | some nodes =>
      obtain ⟨list, hlist, hitems⟩ := hsound.read? hroleNodes nodes rfl
      cases list with
      | array grows items =>
          cases hitems
          exact maps_of_ofRole (Node.wellFormed_array_iff.mp hlist node hin) hrole
      | _ => cases hitems

/-- The values that a description sets are maps, whatever text it was read from. -/
theorem maps_of_parse {known : String → Option String} {text : String} {d : Description}
    (h : parse known text = .ok d) : d.Maps := by
  rw [parse] at h
  split at h
  · cases h
  · next document hread => exact maps_of_ofDocument (Toml.sound_of_read hread) h

/-! ## Plans -/

section Plans

variable {S : Type} [Storage (StateM S)] {good : S → Prop} {known : String → Option String}
  {text : String} {d : Description} {s : S}

/-- Whatever the storage answers, the plan of a description that was read can be stored. -/
theorem portable_of_parse (hparse : parse known text = .ok d) {p : Plan}
    (h : (d.build.on s).1 = .ok p) : p.Portable :=
  portable_build (maps_of_parse hparse).wellFormed h

/-- What a run of a description that was read has stored is loaded as the plan that was built. -/
theorem load_of_parse (hparse : parse known text = .ok d) (hkeeping : Storage.Keeping good)
    (hpaths : d.output.templatePath ≠ d.output.environmentPath) {s₁ : S} (hs : good s)
    {summary : Summary} (hrun : d.run.on s = (.ok summary, s₁))
    (hback : ∀ p, (d.build.on s).1 = .ok p → p.GivenBack) :
    ∃ p q s₂, (d.build.on s).1 = .ok p ∧ d.load.on s₁ = (.ok q, s₂) ∧
      q.compose = p.compose ∧ d.summaryOf q = summary :=
  exists_load_of_run hkeeping hpaths hs hrun
    fun p hp => ⟨portable_of_parse hparse hp, hback p hp⟩

/-- Removing a role from the stored plan of a description that was read comes to composing the plan
without the role. -/
theorem remove_of_parse (hparse : parse known text = .ok d) (hkeeping : Storage.Keeping good)
    (hcheck : d.check = .ok ()) (hseed : d.seed = none)
    (hpaths : d.output.templatePath ≠ d.output.environmentPath) (i : Fin d.roles.length)
    {s₁ : S} (hs : good s) {summary : Summary} (hrun : d.run.on s = (.ok summary, s₁))
    (hback : ∀ p, (d.build.on s).1 = .ok p → p.GivenBack) :
    ∃ left s₂ s₃, (d.remove (d.roles.get i).ns).on s₁ = (.ok left, s₂) ∧
      (d.without i).run.on s = (.ok left, s₃) ∧ Storage.text s₂ = Storage.text s₃ :=
  exists_remove_of_run hkeeping hcheck hseed hpaths i hs hrun
    fun p hp => ⟨portable_of_parse hparse hp, hback p hp⟩

/-- All results that a description that was read can have are one plan, down to the order of its
tables, or errors of one kind; and without a seed the roles can be listed in any order. -/
theorem outcomes_of_parse (hparse : parse known text = .ok d) (hcheck : d.check = .ok ()) :
    (∀ x y, d.Outcome s x → d.Outcome s y → Proofs.Agree x y) ∧
    (d.seed = none → Storage.Steady good → good s → ∀ roles, d.roles.Perm roles →
      ∀ x y, d.Outcome s x → Outcome { d with roles } s y →
        ((∃ p, x = .ok p) ↔ ∃ q, y = .ok q) ∧
        ∀ p q, x = .ok p → y = .ok q → p.same q = true) :=
  have hmaps := maps_of_parse hparse
  ⟨fun _ _ hx hy => hx.agree hmaps hy, fun hseed hsteady hs _ hroles _ _ hx hy =>
    outcomes_reordered_roles hcheck hmaps hsteady hs hseed hroles hx hy⟩

end Plans

end Description

end RolePlan
