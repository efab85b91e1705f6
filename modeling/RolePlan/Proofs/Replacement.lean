import Mathlib.Data.List.Forall2
import RolePlan.Proofs.Table
import RolePlan.Proofs.Texts

/-!
# Replacing the texts that name a role

A tree is known from its shape and its texts: where the shape is kept, the list of the texts says
what the tree has become. So a replacement is described by saying that shapes are kept and what
becomes of each text, and nothing else can have changed.
-/

namespace RolePlan

/-! ## Shapes -/

namespace Value

mutual

/-- The trees differ in nothing but what their texts say: lists have as many items, objects have
the same names in the same order, and all other leaves are equal. -/
def SameShape : Value → Value → Prop
  | .string _, w => ∃ text, w = .string text
  | .list items, w => ∃ others, w = .list others ∧ SameShapeItems items others
  | .object ⟨entries⟩, w => ∃ others, w = .object ⟨others⟩ ∧ SameShapeEntries entries others
  | .null, w => w = .null
  | .bool b, w => w = .bool b
  | .int n, w => w = .int n
  | .float x, w => w = .float x

def SameShapeItems : List Value → List Value → Prop
  | [], others => others = []
  | v :: rest, others => ∃ w more, others = w :: more ∧ SameShape v w ∧ SameShapeItems rest more

def SameShapeEntries : List (String × Value) → List (String × Value) → Prop
  | [], others => others = []
  | (name, v) :: rest, others =>
      ∃ w more, others = (name, w) :: more ∧ SameShape v w ∧ SameShapeEntries rest more

end

variable (f : String → String)

mutual

theorem sameShape_mapTexts : (v : Value) → v.SameShape (v.mapTexts f)
  | .null => rfl
  | .bool _ => rfl
  | .int _ => rfl
  | .float _ => rfl
  | .string text => ⟨f text, rfl⟩
  | .list items => ⟨_, rfl, sameShapeItems_mapTextsItems items⟩
  | .object ⟨entries⟩ => ⟨_, rfl, sameShapeEntries_mapTextsEntries entries⟩

theorem sameShapeItems_mapTextsItems : (items : List Value) →
    SameShapeItems items (mapTextsItems f items)
  | [] => rfl
  | v :: rest => ⟨_, _, rfl, sameShape_mapTexts v, sameShapeItems_mapTextsItems rest⟩

theorem sameShapeEntries_mapTextsEntries : (entries : List (String × Value)) →
    SameShapeEntries entries (mapTextsEntries f entries)
  | [] => rfl
  | (_, v) :: rest => ⟨_, _, rfl, sameShape_mapTexts v, sameShapeEntries_mapTextsEntries rest⟩

end

mutual

theorem texts_mapTexts : (v : Value) → (v.mapTexts f).texts = v.texts.map f
  | .null => rfl
  | .bool _ => rfl
  | .int _ => rfl
  | .float _ => rfl
  | .string _ => rfl
  | .list items => textsItems_mapTextsItems items
  | .object ⟨entries⟩ => textsEntries_mapTextsEntries entries

theorem textsItems_mapTextsItems : (items : List Value) →
    textsItems (mapTextsItems f items) = (textsItems items).map f
  | [] => rfl
  | v :: rest => by
      rw [mapTextsItems, textsItems, textsItems, List.map_append, texts_mapTexts v,
        textsItems_mapTextsItems rest]

theorem textsEntries_mapTextsEntries : (entries : List (String × Value)) →
    textsEntries (mapTextsEntries f entries) = (textsEntries entries).map f
  | [] => rfl
  | (_, v) :: rest => by
      rw [mapTextsEntries, textsEntries, textsEntries, List.map_append, texts_mapTexts v,
        textsEntries_mapTextsEntries rest]

end

mutual

theorem length_texts_of_sameShape : {v w : Value} → v.SameShape w →
    v.texts.length = w.texts.length
  | .null, _, rfl => rfl
  | .bool _, _, rfl => rfl
  | .int _, _, rfl => rfl
  | .float _, _, rfl => rfl
  | .string _, _, ⟨_, rfl⟩ => rfl
  | .list _, _, ⟨_, rfl, h⟩ => length_textsItems_of_sameShape h
  | .object ⟨_⟩, _, ⟨_, rfl, h⟩ => length_textsEntries_of_sameShape h

theorem length_textsItems_of_sameShape : {items others : List Value} →
    SameShapeItems items others → (textsItems items).length = (textsItems others).length
  | [], _, rfl => rfl
  | _ :: _, _, ⟨_, _, rfl, hfirst, hrest⟩ => by
      rw [textsItems, textsItems, List.length_append, List.length_append,
        length_texts_of_sameShape hfirst, length_textsItems_of_sameShape hrest]

theorem length_textsEntries_of_sameShape : {entries others : List (String × Value)} →
    SameShapeEntries entries others →
      (textsEntries entries).length = (textsEntries others).length
  | [], _, rfl => rfl
  | (_, _) :: _, _, ⟨_, _, rfl, hfirst, hrest⟩ => by
      rw [textsEntries, textsEntries, List.length_append, List.length_append,
        length_texts_of_sameShape hfirst, length_textsEntries_of_sameShape hrest]

end

mutual

/-- Trees of one shape with the same texts are the same. -/
theorem eq_of_sameShape_of_texts : {v w u : Value} → v.SameShape w → v.SameShape u →
    w.texts = u.texts → w = u
  | .null, _, _, rfl, rfl, _ => rfl
  | .bool _, _, _, rfl, rfl, _ => rfl
  | .int _, _, _, rfl, rfl, _ => rfl
  | .float _, _, _, rfl, rfl, _ => rfl
  | .string _, _, _, ⟨_, rfl⟩, ⟨_, rfl⟩, h => congrArg string (List.singleton_inj.mp h)
  | .list _, _, _, ⟨_, rfl, hw⟩, ⟨_, rfl, hu⟩, h =>
      congrArg list (eq_of_sameShapeItems_of_texts hw hu h)
  | .object ⟨_⟩, _, _, ⟨_, rfl, hw⟩, ⟨_, rfl, hu⟩, h =>
      congrArg (fun entries => object ⟨entries⟩) (eq_of_sameShapeEntries_of_texts hw hu h)

theorem eq_of_sameShapeItems_of_texts : {items xs ys : List Value} → SameShapeItems items xs →
    SameShapeItems items ys → textsItems xs = textsItems ys → xs = ys
  | [], _, _, rfl, rfl, _ => rfl
  | _ :: _, _, _, ⟨_, _, rfl, hw, hws⟩, ⟨_, _, rfl, hu, hus⟩, h => by
      have hlength := (length_texts_of_sameShape hw).symm.trans (length_texts_of_sameShape hu)
      obtain ⟨hfirst, hrest⟩ := List.append_inj h hlength
      rw [eq_of_sameShape_of_texts hw hu hfirst, eq_of_sameShapeItems_of_texts hws hus hrest]

theorem eq_of_sameShapeEntries_of_texts : {entries xs ys : List (String × Value)} →
    SameShapeEntries entries xs → SameShapeEntries entries ys →
      textsEntries xs = textsEntries ys → xs = ys
  | [], _, _, rfl, rfl, _ => rfl
  | (_, _) :: _, _, _, ⟨_, _, rfl, hw, hws⟩, ⟨_, _, rfl, hu, hus⟩, h => by
      have hlength := (length_texts_of_sameShape hw).symm.trans (length_texts_of_sameShape hu)
      obtain ⟨hfirst, hrest⟩ := List.append_inj h hlength
      rw [eq_of_sameShape_of_texts hw hu hfirst, eq_of_sameShapeEntries_of_texts hws hus hrest]

end

end Value

namespace Resource

mutual

def texts : Resource → List String
  | ⟨_, _, _, _, _, ⟨properties⟩⟩ => textsProperties properties

def textsProperty : PropertyValue → List String
  | .plain v => v.texts
  | .nested _ member => texts member

def textsProperties : List (String × PropertyValue) → List String
  | [] => []
  | (_, property) :: rest => textsProperty property ++ textsProperties rest

end

mutual

/-- The resources differ in nothing but the texts of their properties. Their types and settings are
equal, and so are those of the inline resources in them and the ids of these. -/
def SameShape : Resource → Resource → Prop
  | ⟨type, metadata, dependsOn, updatePolicy, deletionPolicy, ⟨properties⟩⟩, other =>
      ∃ others,
        other = ⟨type, metadata, dependsOn, updatePolicy, deletionPolicy, ⟨others⟩⟩ ∧
          SameShapeProperties properties others

def SameShapeProperty : PropertyValue → PropertyValue → Prop
  | .plain v, other => ∃ w, other = .plain w ∧ v.SameShape w
  | .nested id member, other => ∃ r, other = .nested id r ∧ SameShape member r

def SameShapeProperties : List (String × PropertyValue) → List (String × PropertyValue) → Prop
  | [], others => others = []
  | (name, property) :: rest, others =>
      ∃ other more, others = (name, other) :: more ∧ SameShapeProperty property other ∧
        SameShapeProperties rest more

end

variable (f : String → String)

mutual

theorem sameShape_mapTexts : (r : Resource) → r.SameShape (r.mapTexts f)
  | ⟨_, _, _, _, _, ⟨properties⟩⟩ => ⟨_, rfl, sameShapeProperties_mapTexts properties⟩

theorem sameShapeProperty_mapTexts : (property : PropertyValue) →
    SameShapeProperty property (mapTextsProperty f property)
  | .plain v => ⟨_, rfl, v.sameShape_mapTexts f⟩
  | .nested _ member => ⟨_, rfl, sameShape_mapTexts member⟩

theorem sameShapeProperties_mapTexts : (properties : List (String × PropertyValue)) →
    SameShapeProperties properties (mapTextsProperties f properties)
  | [] => rfl
  | (_, property) :: rest =>
      ⟨_, _, rfl, sameShapeProperty_mapTexts property, sameShapeProperties_mapTexts rest⟩

end

mutual

theorem texts_mapTexts : (r : Resource) → (r.mapTexts f).texts = r.texts.map f
  | ⟨_, _, _, _, _, ⟨properties⟩⟩ => textsProperties_mapTexts properties

theorem textsProperty_mapTexts : (property : PropertyValue) →
    textsProperty (mapTextsProperty f property) = (textsProperty property).map f
  | .plain v => v.texts_mapTexts f
  | .nested _ member => texts_mapTexts member

theorem textsProperties_mapTexts : (properties : List (String × PropertyValue)) →
    textsProperties (mapTextsProperties f properties) = (textsProperties properties).map f
  | [] => rfl
  | (_, property) :: rest => by
      rw [mapTextsProperties, textsProperties, textsProperties, List.map_append,
        textsProperty_mapTexts property, textsProperties_mapTexts rest]

end

mutual

theorem countTexts_eq_countP (test : String → Bool) : (r : Resource) →
    r.countTexts test = r.texts.countP test
  | ⟨_, _, _, _, _, ⟨properties⟩⟩ => countTextsProperties_eq_countP test properties

theorem countTextsProperty_eq_countP (test : String → Bool) : (property : PropertyValue) →
    countTextsProperty test property = (textsProperty property).countP test
  | .plain v => v.countTexts_eq_countP test
  | .nested _ member => countTexts_eq_countP test member

theorem countTextsProperties_eq_countP (test : String → Bool) :
    (properties : List (String × PropertyValue)) →
    countTextsProperties test properties = (textsProperties properties).countP test
  | [] => rfl
  | (_, property) :: rest => by
      rw [countTextsProperties, textsProperties, List.countP_append,
        countTextsProperty_eq_countP test property, countTextsProperties_eq_countP test rest]

end

mutual

theorem length_texts_of_sameShape : {r s : Resource} → r.SameShape s →
    r.texts.length = s.texts.length
  | ⟨_, _, _, _, _, ⟨_⟩⟩, _, ⟨_, rfl, h⟩ => length_textsProperties_of_sameShape h

theorem length_textsProperty_of_sameShape : {property other : PropertyValue} →
    SameShapeProperty property other →
      (textsProperty property).length = (textsProperty other).length
  | .plain _, _, ⟨_, rfl, h⟩ => Value.length_texts_of_sameShape h
  | .nested _ _, _, ⟨_, rfl, h⟩ => length_texts_of_sameShape h

theorem length_textsProperties_of_sameShape :
    {properties others : List (String × PropertyValue)} → SameShapeProperties properties others →
      (textsProperties properties).length = (textsProperties others).length
  | [], _, rfl => rfl
  | (_, _) :: _, _, ⟨_, _, rfl, hfirst, hrest⟩ => by
      rw [textsProperties, textsProperties, List.length_append, List.length_append,
        length_textsProperty_of_sameShape hfirst, length_textsProperties_of_sameShape hrest]

end

mutual

/-- Resources of one shape with the same texts are the same. -/
theorem eq_of_sameShape_of_texts : {r s u : Resource} → r.SameShape s → r.SameShape u →
    s.texts = u.texts → s = u
  | ⟨_, _, _, _, _, ⟨_⟩⟩, _, _, ⟨_, rfl, hs⟩, ⟨_, rfl, hu⟩, h => by
      rw [eq_of_sameShapeProperties_of_texts hs hu h]

theorem eq_of_sameShapeProperty_of_texts : {property x y : PropertyValue} →
    SameShapeProperty property x → SameShapeProperty property y →
      textsProperty x = textsProperty y → x = y
  | .plain _, _, _, ⟨_, rfl, hx⟩, ⟨_, rfl, hy⟩, h =>
      congrArg PropertyValue.plain (Value.eq_of_sameShape_of_texts hx hy h)
  | .nested _ _, _, _, ⟨_, rfl, hx⟩, ⟨_, rfl, hy⟩, h =>
      congrArg (PropertyValue.nested _) (eq_of_sameShape_of_texts hx hy h)

theorem eq_of_sameShapeProperties_of_texts :
    {properties xs ys : List (String × PropertyValue)} → SameShapeProperties properties xs →
      SameShapeProperties properties ys → textsProperties xs = textsProperties ys → xs = ys
  | [], _, _, rfl, rfl, _ => rfl
  | (_, _) :: _, _, _, ⟨_, _, rfl, hx, hxs⟩, ⟨_, _, rfl, hy, hys⟩, h => by
      have hlength := (length_textsProperty_of_sameShape hx).symm.trans
        (length_textsProperty_of_sameShape hy)
      obtain ⟨hfirst, hrest⟩ := List.append_inj h hlength
      rw [eq_of_sameShapeProperty_of_texts hx hy hfirst,
        eq_of_sameShapeProperties_of_texts hxs hys hrest]

end

/-- The shape is kept, and what becomes of each text is as said. -/
def Rewrites (f : String → String) (r s : Resource) : Prop :=
  r.SameShape s ∧ s.texts = r.texts.map f

/-- Only the resource whose texts were changed is what the change makes of it. -/
theorem rewrites_iff {r s : Resource} : r.Rewrites f s ↔ s = r.mapTexts f := by
  constructor
  · rintro ⟨hshape, htexts⟩
    exact eq_of_sameShape_of_texts hshape (r.sameShape_mapTexts f)
      (htexts.trans (r.texts_mapTexts f).symm)
  · rintro rfl
    exact ⟨r.sameShape_mapTexts f, r.texts_mapTexts f⟩

end Resource

/-! ## Templates -/

namespace Seed

/-- The texts in which a role can be named: those in the properties of resources that stand for no
role. -/
def topLevelTexts (t : Template) : List String :=
  (t.resources.entries.filter fun entry => !entry.2.isRole).flatMap fun entry => entry.2.texts

/-- Only resources that stand for no role differ, and they differ in their texts as said. -/
structure Rewrites (f : String → String) (t u : Template) : Prop where
  rest : u = { t with resources := u.resources }
  resources : List.Forall₂ (fun old new : String × Resource =>
    new.1 = old.1 ∧ if old.2.isRole then new.2 = old.2 else old.2.Rewrites f new.2)
    t.resources.entries u.resources.entries

theorem rewrites_iff {f : String → String} {t u : Template} :
    Rewrites f t u ↔ u = mapTopLevel (Resource.mapTexts f) t := by
  have hentry (old new : String × Resource) :
      (new.1 = old.1 ∧ if old.2.isRole then new.2 = old.2 else old.2.Rewrites f new.2) ↔
        (old.1, if old.2.isRole then old.2 else old.2.mapTexts f) = new := by
    rw [Resource.rewrites_iff, eq_comm (b := new), Prod.ext_iff]
    split <;> rfl
  have hresources (v : Template) : List.Forall₂ (fun old new : String × Resource =>
      new.1 = old.1 ∧ if old.2.isRole then new.2 = old.2 else old.2.Rewrites f new.2)
      t.resources.entries v.resources.entries ↔
        v.resources = (mapTopLevel (Resource.mapTexts f) t).resources := by
    simp only [hentry]
    rw [← List.forall₂_map_left_iff, List.forall₂_eq_eq_eq]
    exact ⟨fun h => congrArg Table.mk h.symm, fun h => (congrArg Table.entries h).symm⟩
  constructor
  · rintro ⟨hrest, hentries⟩
    rw [hrest, (hresources u).mp hentries]
    rfl
  · rintro rfl
    exact ⟨rfl, (hresources _).mpr rfl⟩

theorem countReferences_eq_countP (role : String) (entries : List (String × Resource)) :
    countReferences role entries =
      ((entries.filter fun entry => !entry.2.isRole).flatMap fun entry => entry.2.texts).countP
        (Text.sameIgnoringCase · role) := by
  induction entries with
  | nil => rfl
  | cons entry rest ih =>
      rw [countReferences, ih, Resource.countTexts_eq_countP]
      cases hrole : entry.2.isRole with
      | true => rw [List.filter_cons_of_neg (by simp [hrole]), if_pos rfl, Nat.zero_add]
      | false =>
          rw [List.filter_cons_of_pos (by simp [hrole]), List.flatMap_cons, List.countP_append,
            if_neg Bool.false_ne_true]

/-- A replacement that settles each text is done once and for all, even where it makes a role of a
resource: that resource is then left alone. -/
theorem mapTopLevel_mapTopLevel {f : String → String} (hf : ∀ text, f (f text) = f text)
    (t : Template) :
    mapTopLevel (Resource.mapTexts f) (mapTopLevel (Resource.mapTexts f) t) =
      mapTopLevel (Resource.mapTexts f) t := by
  rw [mapTopLevel, mapTopLevel, Table.map_map]
  congr 2
  funext r
  cases hrole : r.isRole with
  | true => rw [if_pos rfl, if_pos hrole]
  | false =>
      rw [if_neg Bool.false_ne_true, Resource.mapTexts_mapTexts]
      simp only [hf, ite_self]

theorem mem_topLevelTexts_mapTopLevel {f : String → String} {t : Template} {text : String}
    (h : text ∈ topLevelTexts (mapTopLevel (Resource.mapTexts f) t)) : ∃ old, text = f old := by
  obtain ⟨entry, he, htext⟩ := List.mem_flatMap.mp h
  obtain ⟨hin, hrole⟩ := List.mem_filter.mp he
  obtain ⟨old, -, rfl⟩ := List.mem_map.mp hin
  dsimp only at hrole htext
  cases hold : old.2.isRole with
  | true =>
      rw [if_pos hold, hold] at hrole
      cases hrole
  | false =>
      rw [if_neg (by simp [hold]), Resource.texts_mapTexts] at htext
      obtain ⟨before, -, rfl⟩ := List.mem_map.mp htext
      exact ⟨before, rfl⟩

/-- The references to a role are counted and replaced just where a text of a resource that stands
for no role equals the role's name ignoring case. Nothing else changes, and a second replacement
changes nothing at all. -/
theorem replaces_exactly (t : Template) (role id : String) :
    (updateReferences t role id).1 =
        (topLevelTexts t).countP (fun text => Text.lowercase text == Text.lowercase role) ∧
      (∀ u, u = (updateReferences t role id).2 ↔ Rewrites (fun text =>
        if Text.lowercase text = Text.lowercase role then id else text) t u) ∧
      (updateReferences (updateReferences t role id).2 role id).2 =
        (updateReferences t role id).2 ∧
      (Text.lowercase id ≠ Text.lowercase role →
        (updateReferences (updateReferences t role id).2 role id).1 = 0) := by
  have hrename : rename role id = fun text =>
      if Text.lowercase text = Text.lowercase role then id else text := by
    funext text
    simp only [rename, Text.sameIgnoringCase, beq_iff_eq]
  refine ⟨countReferences_eq_countP role t.resources.entries, fun u => ?_, ?_, fun hid => ?_⟩
  · rw [← hrename, rewrites_iff]
    rfl
  · refine mapTopLevel_mapTopLevel (fun text => ?_) t
    rw [hrename]
    dsimp only
    split <;> simp [*]
  · refine (countReferences_eq_countP role _).trans (List.countP_eq_zero.mpr fun text htext => ?_)
    obtain ⟨old, rfl⟩ := mem_topLevelTexts_mapTopLevel htext
    rw [hrename, Text.sameIgnoringCase, beq_iff_eq]
    dsimp only
    split
    · exact hid
    · next hold => exact hold

/-- A network with servers, and a group that becomes a role once its member type is replaced. -/
def regroupedTemplate : Template :=
  let member : Value := .object ⟨[("type", .string "compute"),
    ("properties", .single "name" (.list [.string "COMPUTE", .int 1, .string "storage"]))]⟩
  { resources := ⟨[
      ("net", {
        type := "Compute"
        properties := ⟨[("servers", .nested "compute" {
          type := "T", properties := ⟨[("Compute", .plain (.string "Compute"))]⟩ })]⟩ }),
      ("group", {
        type := Resource.groupType
        properties := ⟨[(Resource.definitionName, .plain member)]⟩ })]⟩ }

theorem replaces_exactly_regroupedTemplate :
    let first := updateReferences regroupedTemplate "Compute" "Tuskar::compute"
    let second := updateReferences first.2 "Compute" "Tuskar::compute"
    Text.lowercase "Tuskar::compute" ≠ Text.lowercase "Compute" ∧
      topLevelTexts regroupedTemplate = ["Compute", "compute", "COMPUTE", "storage"] ∧
      first.1 = 3 ∧ topLevelTexts first.2 = ["Tuskar::compute"] ∧ second = (0, first.2) := by
  have hid : Text.lowercase "Tuskar::compute" ≠ Text.lowercase "Compute" := by decide +kernel
  have htexts : topLevelTexts regroupedTemplate = ["Compute", "compute", "COMPUTE", "storage"] := by
    decide +kernel
  obtain ⟨hcount, -, hagain, hnone⟩ :=
    replaces_exactly regroupedTemplate "Compute" "Tuskar::compute"
  refine ⟨hid, htexts, ?_, by decide +kernel, Prod.ext (hnone hid) hagain⟩
  rw [hcount, htexts]
  decide +kernel

end Seed

end RolePlan
