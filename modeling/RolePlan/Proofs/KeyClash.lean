import Mathlib.Data.List.Forall2
import RolePlan.Proofs.EnvironmentGrammar
import RolePlan.Proofs.KeyText

/-!
# Keys that clash

The keys of a YAML mapping can be texts, numbers and truth values, and all of them become texts.
Different numbers and truth values become different texts. So entries get lost just where a text is
written as a key beside the number or truth value that has this text: of the two, the later gives
the value and the earlier the place.
-/

namespace RolePlan.Yaml

/-! ## What is kept -/

namespace Tree

/-- No text among the keys is the text of a number or a truth value among them. -/
def ClashFree (entries : List (Tree × Tree)) : Prop :=
  ∀ a ∈ entries, ∀ b ∈ entries, ∀ text, a.1 = .scalar (.string text) → keyText b.1 = .ok text →
    b.1 = .scalar (.string text)

mutual

/-- In no mapping of the tree do keys clash. -/
def Unambiguous : Tree → Prop
  | .scalar _ => True
  | .sequence items => UnambiguousItems items
  | .mapping entries => ClashFree entries ∧ UnambiguousEntries entries
  | .tagged _ content => Unambiguous content

def UnambiguousItems : List Tree → Prop
  | [] => True
  | tree :: rest => Unambiguous tree ∧ UnambiguousItems rest

def UnambiguousEntries : List (Tree × Tree) → Prop
  | [] => True
  | (_, tree) :: rest => Unambiguous tree ∧ UnambiguousEntries rest

end

end Tree

mutual

/-- Every mapping of the tree has become an object that has an entry for each of its entries, with
the text of the key and the conversion of its own value. -/
def Kept : Tree → Value → Prop
  | .scalar value, v => ofScalar value = .ok v
  | .sequence items, v => ∃ values, v = .list values ∧ KeptItems items values
  | .mapping entries, v => ∃ fields, v = .object ⟨fields⟩ ∧ KeptEntries entries fields
  | .tagged _ content, v => Kept content v

def KeptItems : List Tree → List Value → Prop
  | [], values => values = []
  | tree :: rest, values => ∃ v more, values = v :: more ∧ Kept tree v ∧ KeptItems rest more

def KeptEntries : List (Tree × Tree) → List (String × Value) → Prop
  | [], fields => fields = []
  | (key, tree) :: rest, fields =>
      ∃ name v more, fields = (name, v) :: more ∧ keyText key = .ok name ∧ ofTree tree = .ok v ∧
        Kept tree v ∧ KeptEntries rest more

end

/-! ## Mappings -/

def Converts (entry : Tree × Tree) (pair : String × Value) : Prop :=
  keyText entry.1 = .ok pair.1 ∧ ofTree entry.2 = .ok pair.2

theorem ofEntries_eq_ok {entries : List (Tree × Tree)} {done fields : Table Value}
    (h : ofEntries done entries = .ok fields) :
    ∃ pairs, List.Forall₂ Converts entries pairs ∧
      fields = pairs.foldl (fun t pair => t.put pair.1 pair.2) done := by
  induction entries generalizing done with
  | nil =>
      cases h
      exact ⟨[], .nil, rfl⟩
  | cons entry rest ih =>
      rw [ofEntries] at h
      obtain ⟨name, hname, h⟩ := Proofs.bind_eq_ok h
      obtain ⟨v, hv, h⟩ := Proofs.bind_eq_ok h
      obtain ⟨pairs, hpairs, rfl⟩ := ih h
      exact ⟨(name, v) :: pairs, .cons ⟨hname, hv⟩ hpairs, rfl⟩

/-- Entries are put one after another: of keys with one text, the last gives the value and the
first the place. -/
theorem ofTree_mapping_eq_ok {entries : List (Tree × Tree)} {v : Value}
    (h : ofTree (.mapping entries) = .ok v) :
    ∃ pairs, List.Forall₂ Converts entries pairs ∧ v = .object (Table.ofList pairs) := by
  obtain ⟨fields, hfields, h⟩ := Proofs.bind_eq_ok h
  cases h
  obtain ⟨pairs, hpairs, rfl⟩ := ofEntries_eq_ok hfields
  exact ⟨pairs, hpairs, rfl⟩

theorem converts_of_keptEntries {entries : List (Tree × Tree)} {fields : List (String × Value)}
    (h : KeptEntries entries fields) : List.Forall₂ Converts entries fields := by
  induction entries generalizing fields with
  | nil =>
      rw [h]
      exact .nil
  | cons entry rest ih =>
      obtain ⟨name, v, more, rfl, hname, hv, -, hrest⟩ := h
      exact .cons ⟨hname, hv⟩ (ih hrest)

/-- The names are known from the keys. -/
theorem map_keyText_of_converts {entries : List (Tree × Tree)} {pairs : List (String × Value)}
    (h : List.Forall₂ Converts entries pairs) :
    entries.map (keyText ·.1) = (pairs.map (·.1)).map .ok := by
  induction h with
  | nil => rfl
  | cons hfirst _ ih => rw [List.map_cons, List.map_cons, List.map_cons, ih, hfirst.1]

/-- The names are different exactly if no keys clash. -/
theorem nodup_iff_clashFree {entries : List (Tree × Tree)} {pairs : List (String × Value)}
    (hp : (Tree.mapping entries).Proper) (h : List.Forall₂ Converts entries pairs) :
    (pairs.map (·.1)).Nodup ↔ Tree.ClashFree entries := by
  have hproper := Tree.properEntries_iff.mp hp.2
  rw [← List.nodup_map_iff (f := (Except.ok : String → Except Error String))
    (fun _ _ => Except.ok.inj), ← map_keyText_of_converts h]
  constructor
  · intro hnodup a ha b hb text htext hb'
    have heq : a = b := List.inj_on_of_nodup_map hnodup ha hb (by rw [htext, hb']; rfl)
    rw [← heq, htext]
  · intro hfree
    rw [List.Nodup, List.pairwise_map]
    refine hp.1.imp_of_mem fun {a b} ha hb hne heq => ?_
    obtain ⟨name, hname⟩ : ∃ name, keyText a.1 = .ok name := by
      have hmem : keyText a.1 ∈ (pairs.map (·.1)).map .ok :=
        map_keyText_of_converts h ▸ List.mem_map_of_mem ha
      obtain ⟨name, -, hname⟩ := List.mem_map.mp hmem
      exact ⟨name, hname.symm⟩
    have hname' : keyText b.1 = .ok name := heq.symm.trans hname
    have hsame : b.1.same a.1 = true := by
      obtain htext | htext | hsame :=
        same_of_keyText (hproper b hb).1 (hproper a ha).1 hname' hname
      · rw [htext, hfree b hb a ha name htext hname]
        exact same_scalar_self _
      · rw [htext, hfree a ha b hb name htext hname']
        exact same_scalar_self _
      · exact hsame
    exact Bool.false_ne_true (hne.symm.trans hsame)

mutual

/-- Every entry is kept exactly if no keys clash. -/
theorem kept_iff : {tree : Tree} → {v : Value} → tree.Proper → ofTree tree = .ok v →
    (Kept tree v ↔ tree.Unambiguous)
  | .scalar _, _, _, h => iff_of_true h trivial
  | .sequence items, _, hp, h => by
      obtain ⟨values, hvalues, h⟩ := Proofs.bind_eq_ok h
      cases h
      rw [Tree.Unambiguous, ← keptItems_iff hp hvalues]
      exact ⟨fun ⟨_, heq, hitems⟩ => Value.list.inj heq ▸ hitems, fun hitems => ⟨_, rfl, hitems⟩⟩
  | .mapping entries, _, hp, h => by
      obtain ⟨pairs, hpairs, rfl⟩ := ofTree_mapping_eq_ok h
      have hnodup := nodup_iff_clashFree hp hpairs
      have hentries := keptEntries_iff hp.2 hpairs
      rw [Tree.Unambiguous, ← hnodup, ← hentries]
      constructor
      · rintro ⟨fields, heq, hfields⟩
        -- An object gives no name twice. So its entries are all those of the mapping.
        have hwell : (Value.object ⟨fields⟩).WellFormed := heq ▸ wellFormed_of_ofTree h
        have hnames : fields.map (·.1) = pairs.map (·.1) :=
          List.map_injective_iff.mpr (fun _ _ => Except.ok.inj) <|
            (map_keyText_of_converts (converts_of_keptEntries hfields)).symm.trans
              (map_keyText_of_converts hpairs)
        have hpairsNodup : (pairs.map (·.1)).Nodup := hnames ▸ hwell.1
        rw [Table.ofList_of_nodup hpairsNodup] at heq
        cases heq
        exact ⟨hpairsNodup, hfields⟩
      · rintro ⟨hpairsNodup, hfields⟩
        exact ⟨pairs, by rw [Table.ofList_of_nodup hpairsNodup], hfields⟩
  | .tagged _ content, _, hp, h => by
      rw [ofTree] at h
      exact @kept_iff content _ hp h

theorem keptItems_iff : {items : List Tree} → {values : List Value} → Tree.ProperItems items →
    ofItems items = .ok values → (KeptItems items values ↔ Tree.UnambiguousItems items)
  | [], _, _, h => by
      cases h
      exact iff_of_true rfl trivial
  | tree :: rest, _, hp, h => by
      obtain ⟨v, hv, h⟩ := Proofs.bind_eq_ok h
      obtain ⟨more, hmore, h⟩ := Proofs.bind_eq_ok h
      cases h
      rw [Tree.UnambiguousItems, ← kept_iff hp.1 hv, ← keptItems_iff hp.2 hmore]
      exact ⟨fun ⟨_, _, heq, hfirst, hrest⟩ => by
        cases heq
        exact ⟨hfirst, hrest⟩, fun ⟨hfirst, hrest⟩ => ⟨v, more, rfl, hfirst, hrest⟩⟩

theorem keptEntries_iff : {entries : List (Tree × Tree)} → {pairs : List (String × Value)} →
    Tree.ProperEntries entries → List.Forall₂ Converts entries pairs →
    (KeptEntries entries pairs ↔ Tree.UnambiguousEntries entries)
  | [], _, _, .nil => iff_of_true rfl trivial
  | (_, tree) :: rest, (name, v) :: more, hp, .cons hfirst hrest => by
      rw [Tree.UnambiguousEntries, ← kept_iff hp.2.1 hfirst.2, ← keptEntries_iff hp.2.2 hrest]
      exact ⟨fun ⟨_, _, _, heq, _, _, hvalue, hmore⟩ => by
        cases heq
        exact ⟨hvalue, hmore⟩,
        fun ⟨hvalue, hmore⟩ => ⟨name, v, more, rfl, hfirst.1, hfirst.2, hvalue, hmore⟩⟩

end

/-! ## Sections -/

namespace Tree

/-- The tree without the tags around it. -/
def content : Tree → Tree
  | .tagged _ tree => tree.content
  | tree => tree

def entries (tree : Tree) : List (Tree × Tree) :=
  match tree.content with
  | .mapping entries => entries
  | _ => []

def name? (key : Tree) : Option String := (keyText key).toOption

def keyNames (tree : Tree) : List String := tree.entries.map fun entry => entry.1.name?.getD ""

def field? (tree : Tree) (name : String) : Option Tree :=
  (tree.entries.find? fun entry => entry.1.name? == some name).map (·.2)

/-- The names of the keys in the mapping at the end of a path. -/
def namesAt : List String → Tree → List String
  | [], tree => tree.keyNames
  | name :: path, tree => ((tree.field? name).map (namesAt path)).getD []

end Tree

theorem name?_of_keyText {key : Tree} {name : String} (h : keyText key = .ok name) :
    key.name? = some name := by
  rw [Tree.name?, h]
  rfl

theorem keptEntries_entries : {tree : Tree} → {v : Value} → Kept tree v →
    KeptEntries tree.entries (Grammar.fieldsOf v).entries
  | .scalar value, _, h => by
      cases value <;> cases h <;> rfl
  | .sequence _, _, ⟨_, rfl, _⟩ => rfl
  | .mapping _, _, ⟨_, rfl, h⟩ => h
  | .tagged _ content, _, h => @keptEntries_entries content _ h

end RolePlan.Yaml

namespace RolePlan

def Value.namesAt : List String → Value → List String
  | [], v => (Grammar.fieldsOf v).names
  | name :: path, v => ((v.field? name).map (namesAt path)).getD []

namespace Yaml

variable {tree : Tree} {v : Value}

theorem keyNames_of_kept (h : Kept tree v) : tree.keyNames = (Grammar.fieldsOf v).names := by
  have hentries := keptEntries_entries h
  rw [Tree.keyNames, Table.names]
  generalize tree.entries = entries at hentries
  generalize (Grammar.fieldsOf v).entries = fields at hentries
  induction entries generalizing fields with
  | nil =>
      rw [hentries]
      rfl
  | cons entry rest ih =>
      obtain ⟨name, value, more, rfl, hname, -, -, hrest⟩ := hentries
      rw [List.map_cons, List.map_cons, ih _ hrest, name?_of_keyText hname, Option.getD_some]

theorem field?_of_kept (h : Kept tree v) (name : String) :
    Option.Rel Kept (tree.field? name) (v.field? name) := by
  have hentries := keptEntries_entries h
  have hfield : v.field? name = (Grammar.fieldsOf v).entries.lookup name := by
    cases v <;> rfl
  rw [Tree.field?, hfield]
  generalize tree.entries = entries at hentries
  generalize (Grammar.fieldsOf v).entries = fields at hentries
  induction entries generalizing fields with
  | nil =>
      rw [hentries]
      exact .none
  | cons entry rest ih =>
      obtain ⟨other, value, more, rfl, hname, -, hvalue, hrest⟩ := hentries
      rw [List.find?_cons, List.lookup_cons, name?_of_keyText hname, Option.some_beq_some,
        BEq.comm]
      cases name == other with
      | true => exact .some hvalue
      | false => exact ih _ hrest

/-- Where every entry is kept, the names are those of the keys, wherever we look. -/
theorem namesAt_of_kept (path : List String) (h : Kept tree v) :
    tree.namesAt path = v.namesAt path := by
  induction path generalizing tree v with
  | nil => exact keyNames_of_kept h
  | cons name path ih =>
      have hrel := field?_of_kept h name
      rw [Tree.namesAt, Value.namesAt]
      generalize tree.field? name = a at hrel ⊢
      generalize v.field? name = b at hrel ⊢
      cases hrel with
      | none => rfl
      | some h => exact ih h

theorem names_mappingIn (document : Table Value) (name : String) :
    (Grammar.mappingIn document name).names = (Value.object document).namesAt [name] := by
  change _ = (((document.find? name).map (Value.namesAt [])).getD [])
  rw [Grammar.mappingIn, Grammar.given]
  cases document.find? name with
  | none => rfl
  | some v => cases v <;> rfl

theorem namesAt_of_find?_mappingIn {document : Table Value} {part name : String} {w : Value}
    (h : (Grammar.mappingIn document part).find? name = some w) (path : List String) :
    (Value.object document).namesAt (part :: name :: path) = w.namesAt path := by
  change (((document.find? part).map (Value.namesAt (name :: path))).getD []) = _
  rw [Grammar.mappingIn, Grammar.given] at h
  cases hpart : document.find? part with
  | none =>
      rw [hpart] at h
      cases h
  | some u =>
      rw [hpart] at h
      cases u with
      | object fields =>
          have hfield : (Value.object fields).field? name = some w := h
          rw [Option.map_some, Option.getD_some, Value.namesAt, hfield, Option.map_some,
            Option.getD_some]
      | _ => cases h

/-- The properties of a resource are those of its entry. -/
theorem names_properties {document : Table Value} {id : String} {r : Resource}
    (h : (Grammar.contents document).resources.find? id = some r) :
    r.properties.names = (Value.object document).namesAt ["resources", id, "properties"] := by
  rw [Grammar.contents, Table.find?_map, Option.map_eq_some_iff] at h
  obtain ⟨w, hw, rfl⟩ := h
  rw [namesAt_of_find?_mappingIn hw, Grammar.resourceOf, Table.names_map, names_mappingIn]
  cases w <;> rfl

/-- A tree with pairwise different keys, as every text is read, is converted without a loss exactly
if none of its mappings has a text for a key that is also the text of another key, a number or a
truth value. Each key of a section is then a parameter, resource, output or environment value of its
own, and each key of its properties is a property of a resource. -/
theorem kept_iff_unambiguous (h : ofTree tree = .ok v) :
    (∀ text, Tree.read text = .ok tree → tree.Proper) ∧
      (tree.Proper → (Kept tree v ↔ tree.Unambiguous)) ∧
      (tree.Proper → tree.Unambiguous → ∀ document, v = .object document →
        (∀ t, Template.ofDocument document = .ok t →
          t.parameters.names = tree.namesAt ["parameters"] ∧
            t.resources.names = tree.namesAt ["resources"] ∧
            t.outputs.names = tree.namesAt ["outputs"] ∧
            ∀ id r, t.resources.find? id = some r →
              r.properties.names = tree.namesAt ["resources", id, "properties"]) ∧
        ∀ e, Environment.ofDocument document = .ok e →
          e.parameters.names = tree.namesAt ["parameters"] ∧
            e.registry.names = tree.namesAt ["resource_registry"]) := by
  refine ⟨fun _ => Tree.proper_of_read, fun hp => kept_iff hp h, fun hp hfree document hv => ?_⟩
  subst hv
  have hwell := wellFormed_of_ofTree h
  have hnames (path : List String) : tree.namesAt path = (Value.object document).namesAt path :=
    namesAt_of_kept path ((kept_iff hp h).mpr hfree)
  refine ⟨fun t ht => ?_, fun e he => ?_⟩
  · rw [Grammar.ofDocument_eq hwell] at ht
    obtain rfl := Proofs.outcome_eq_ok ht
    rw [hnames, hnames, hnames, ← names_mappingIn, ← names_mappingIn, ← names_mappingIn]
    refine ⟨Table.names_map _ _, Table.names_map _ _, Table.names_map _ _, fun id r hr => ?_⟩
    rw [hnames]
    exact names_properties hr
  · rw [Grammar.ofDocument_environment_eq hwell] at he
    obtain rfl := Proofs.outcome_eq_ok he
    rw [hnames, hnames, ← names_mappingIn, ← names_mappingIn]
    exact ⟨rfl, Table.names_map _ _⟩

def parameterTree (type : String) : Tree :=
  .mapping [(.scalar (.string "type"), .scalar (.string type))]

/-- A section with keys of several kinds, the last of its values behind a tag. -/
def mixedLines : List String :=
  ["parameters:",
    "  1:",
    "    type: string",
    "  1.5:",
    "    type: json",
    "  true:",
    "    type: number",
    "  '1.50': !Ref",
    "    type: string"]

def threeHalves : Binary64 := ⟨false, 3 * 2 ^ 51, -52⟩

def mixedTree : Tree :=
  .mapping [(.scalar (.string "parameters"), .mapping [
    (.scalar (.int 1), parameterTree "string"),
    (.scalar (.float threeHalves), parameterTree "json"),
    (.scalar (.bool true), parameterTree "number"),
    (.scalar (.string "1.50"), .tagged "Ref" (parameterTree "string"))])]

def parameterDocument (parameters : List (String × String)) : Table Value :=
  ⟨[("parameters", .object (Table.map (fun type => .single "type" (.string type)) ⟨parameters⟩))]⟩

def mixedDocument : Table Value :=
  parameterDocument [("1", "string"), ("1.5", "json"), ("true", "number"), ("1.50", "string")]

theorem read_mixedLines : Tree.read (String.ofList (ofLines mixedLines)) = .ok mixedTree := by
  refine read_of_readsAs ?_
  rw [readsAs, Tree.read, Token.scan, String.toList_ofList]
  decide +kernel

theorem unambiguous_mixedTree : mixedTree.Unambiguous := by
  have hone : (Scalar.int 1).numberText? = some "1" := rfl
  have hthreeHalves : (Scalar.float threeHalves).numberText? = some "1.5" := rfl
  simp [mixedTree, parameterTree, Tree.Unambiguous, Tree.UnambiguousEntries, Tree.ClashFree,
    keyText, Value.boolText, hone, hthreeHalves]

theorem kept_iff_unambiguous_mixedTree :
    mixedTree.Proper ∧ Kept mixedTree (.object mixedDocument) ∧
      (∃ t, Template.ofDocument mixedDocument = .ok t ∧
        t.parameters.names = mixedTree.namesAt ["parameters"] ∧
        t.parameters.names = ["1", "1.5", "true", "1.50"]) ∧
      ∃ e, Environment.ofDocument mixedDocument = .ok e ∧
        e.parameters.names = mixedTree.namesAt ["parameters"] := by
  have hconverts : ofTree mixedTree = .ok (.object mixedDocument) := rfl
  have hwell := wellFormed_of_ofTree hconverts
  obtain ⟨hread, hkept, hnames⟩ := kept_iff_unambiguous hconverts
  have hproper := hread _ read_mixedLines
  obtain ⟨htemplate, henvironment⟩ := hnames hproper unambiguous_mixedTree mixedDocument rfl
  have ht : Template.ofDocument mixedDocument = .ok (Grammar.contents mixedDocument) := by
    rw [Grammar.ofDocument_eq hwell]
    rfl
  have he : Environment.ofDocument mixedDocument = .ok (Grammar.environmentOf mixedDocument) := by
    rw [Grammar.ofDocument_environment_eq hwell]
    rfl
  exact ⟨hproper, (hkept hproper).mpr unambiguous_mixedTree, ⟨_, ht, (htemplate _ ht).1, rfl⟩,
    _, he, (henvironment _ he).1⟩

/-- A number and its text, written as keys beside each other. -/
def clashLines : List String :=
  ["parameters:",
    "  1:",
    "    type: string",
    "  '1':",
    "    type: number"]

def clashTree : Tree :=
  .mapping [(.scalar (.string "parameters"), .mapping [
    (.scalar (.int 1), parameterTree "string"),
    (.scalar (.string "1"), parameterTree "number")])]

theorem read_clashLines : Tree.read (String.ofList (ofLines clashLines)) = .ok clashTree := by
  refine read_of_readsAs ?_
  rw [readsAs, Tree.read, Token.scan, String.toList_ofList]
  decide +kernel

theorem parse_eq_contents {text : String} {tree : Tree} {document : Table Value}
    (hblank : Text.isBlank text = false) (hread : Tree.read text = .ok tree)
    (h : ofTree tree = .ok (.object document)) (hfaults : Grammar.faults document = []) :
    Template.parse text = .ok (Grammar.contents document) := by
  have hdocument := Grammar.ofDocument_eq (wellFormed_of_ofTree h)
  rw [hfaults] at hdocument
  rw [Template.parse, load_of_ofTree hblank hread h]
  exact hdocument

/-- Two different keys become one parameter, without an error. -/
theorem merged_clashTree :
    Tree.read (String.ofList (ofLines clashLines)) = .ok clashTree ∧ clashTree.Proper ∧
      ofTree clashTree = .ok (.object (parameterDocument [("1", "number")])) ∧
      ¬ Kept clashTree (.object (parameterDocument [("1", "number")])) ∧
      clashTree.namesAt ["parameters"] = ["1", "1"] ∧
      ∃ t, Template.parse (String.ofList (ofLines clashLines)) = .ok t ∧
        t.parameters.names = ["1"] := by
  have hproper := Tree.proper_of_read read_clashLines
  have hconverts : ofTree clashTree = .ok (.object (parameterDocument [("1", "number")])) := rfl
  have hclash : ¬ clashTree.Unambiguous := fun h => by
    have hfree := h.2.1.1
    have hkey := hfree _ (.tail _ (.head _)) _ (.head _) "1" rfl rfl
    cases hkey
  exact ⟨read_clashLines, hproper, hconverts,
    fun hkept => hclash ((kept_iff hproper hconverts).mp hkept), rfl,
    Grammar.contents (parameterDocument [("1", "number")]),
    parse_eq_contents (isBlank_ofLines (by decide)) read_clashLines hconverts rfl, rfl⟩

end Yaml

end RolePlan
