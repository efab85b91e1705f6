import RolePlan.Proofs.Alike
import RolePlan.Proofs.KeyClash

/-!
# YAML trees with their keys in other orders

Where no keys clash, the order of the keys of a YAML tree is only that of the entries of its
objects. Where keys clash, the later gives the value, and so the order is more than that.
-/

namespace RolePlan.Yaml

open Proofs (SameOutcome)

/-! ## Reorderings -/

namespace Tree

mutual

/-- The second tree is the first with the entries of its mappings in other orders, at any depth,
those of mappings that are keys included. -/
def Reorders : Tree → Tree → Prop
  | .scalar value, u => u = .scalar value
  | .sequence items, u => ∃ others, u = .sequence others ∧ ReordersItems items others
  | .mapping entries, u =>
      ∃ changed others, u = .mapping others ∧ ReordersEntries entries changed ∧
        changed.Perm others
  | .tagged tag content, u => ∃ other, u = .tagged tag other ∧ Reorders content other

def ReordersItems : List Tree → List Tree → Prop
  | [], others => others = []
  | tree :: rest, others =>
      ∃ u more, others = u :: more ∧ Reorders tree u ∧ ReordersItems rest more

/-- The entries stay in their places. -/
def ReordersEntries : List (Tree × Tree) → List (Tree × Tree) → Prop
  | [], others => others = []
  | (key, tree) :: rest, others =>
      ∃ k u more, others = (k, u) :: more ∧ Reorders key k ∧ Reorders tree u ∧
        ReordersEntries rest more

end

mutual

theorem reorders_self : (tree : Tree) → tree.Reorders tree
  | .scalar _ => rfl
  | .sequence items => ⟨items, rfl, reordersItems_self items⟩
  | .mapping entries => ⟨entries, entries, rfl, reordersEntries_self entries, .refl _⟩
  | .tagged _ content => ⟨content, rfl, reorders_self content⟩

theorem reordersItems_self : (items : List Tree) → ReordersItems items items
  | [] => rfl
  | tree :: rest => ⟨tree, rest, rfl, reorders_self tree, reordersItems_self rest⟩

theorem reordersEntries_self : (entries : List (Tree × Tree)) → ReordersEntries entries entries
  | [] => rfl
  | (key, tree) :: rest =>
      ⟨key, tree, rest, rfl, reorders_self key, reorders_self tree, reordersEntries_self rest⟩

end

/-- A section with its entries from the last to the first. -/
theorem reorders_reverse (key : Tree) (entries : List (Tree × Tree)) :
    (mapping [(key, mapping entries)]).Reorders (mapping [(key, mapping entries.reverse)]) :=
  ⟨_, _, rfl, ⟨key, _, [], rfl, reorders_self key,
    ⟨entries, _, rfl, reordersEntries_self entries, entries.reverse_perm.symm⟩, rfl⟩, .refl _⟩

end Tree

/-! ## Conversion -/

theorem ofEntries_of_converts {entries : List (Tree × Tree)} {pairs : List (String × Value)}
    (h : List.Forall₂ Converts entries pairs) (done : Table Value) :
    ofEntries done entries = .ok (pairs.foldl (fun t pair => t.put pair.1 pair.2) done) := by
  induction h generalizing done with
  | nil => rfl
  | cons hfirst _ ih =>
      rw [ofEntries, hfirst.1, hfirst.2]
      exact ih _

theorem ofTree_of_converts {entries : List (Tree × Tree)} {pairs : List (String × Value)}
    (h : List.Forall₂ Converts entries pairs) :
    ofTree (.mapping entries) = .ok (.object (Table.ofList pairs)) := by
  rw [ofTree, ofEntries_of_converts h]
  rfl

/-- Keys that can be keys are scalars, which have no order. -/
theorem keyText_of_reorders {key k : Tree} (h : key.Reorders k) :
    SameOutcome Eq (keyText key) (keyText k) := by
  cases key with
  | scalar value =>
      obtain rfl := h
      cases keyText (.scalar value) with
      | ok text => exact .ok rfl
      | error e => exact .error e e
  | sequence items =>
      obtain ⟨others, rfl, -⟩ := h
      exact .error _ _
  | mapping entries =>
      obtain ⟨changed, others, rfl, -⟩ := h
      exact .error _ _
  | tagged tag content =>
      obtain ⟨other, rfl, -⟩ := h
      exact .error _ _

/-- Entries convert alike in other orders. Their names differ, so the mappings have them all. -/
theorem ofTree_mapping_of_reorders {entries changed others : List (Tree × Tree)}
    (hnodup : ∀ pairs, List.Forall₂ Converts entries pairs → (pairs.map (·.1)).Nodup)
    (hchanged : ∀ pairs, List.Forall₂ Converts entries pairs →
      ∃ more, List.Forall₂ Converts changed more ∧ Value.ReordersEntries pairs more)
    (hback : ∀ more, List.Forall₂ Converts changed more →
      ∃ pairs, List.Forall₂ Converts entries pairs)
    (hperm : changed.Perm others) :
    SameOutcome Value.Reorders (ofTree (.mapping entries)) (ofTree (.mapping others)) := by
  refine .of_imp (fun v hv => ?_) fun w hw => ?_
  · obtain ⟨pairs, hpairs, rfl⟩ := ofTree_mapping_eq_ok hv
    obtain ⟨more, hmore, hreorders⟩ := hchanged pairs hpairs
    obtain ⟨last, hlast, hlastPerm⟩ := List.perm_comp_forall₂ hperm.symm hmore
    have hmoreNodup : (more.map (·.1)).Nodup :=
      Value.map_fst_of_reordersEntries hreorders ▸ hnodup pairs hpairs
    have hlastNodup : (last.map (·.1)).Nodup := (hlastPerm.map _).nodup_iff.mpr hmoreNodup
    refine ⟨_, ofTree_of_converts hlast, ?_⟩
    rw [Table.ofList_of_nodup (hnodup pairs hpairs), Table.ofList_of_nodup hlastNodup]
    exact ⟨more, last, rfl, hreorders, hlastPerm.symm⟩
  · obtain ⟨last, hlast, -⟩ := ofTree_mapping_eq_ok hw
    obtain ⟨more, hmore, -⟩ := List.perm_comp_forall₂ hperm hlast
    obtain ⟨pairs, hpairs⟩ := hback more hmore
    exact ⟨_, ofTree_of_converts hpairs⟩

mutual

/-- Where no keys clash, a tree with its keys in other orders is converted to a value with its keys
in other orders, or to none as the first. -/
theorem ofTree_of_reorders : {tree other : Tree} → tree.Proper → tree.Unambiguous →
    tree.Reorders other → SameOutcome Value.Reorders (ofTree tree) (ofTree other)
  | .scalar value, _, _, _, rfl => by
      cases value <;> first | exact .ok rfl | exact .error _ _
  | .sequence _, _, hp, hfree, ⟨_, rfl, h⟩ =>
      (ofItems_of_reorders hp hfree h).bind fun _ more hitems => .ok ⟨more, rfl, hitems⟩
  | .mapping _, _, hp, hfree, ⟨_, _, rfl, h, hperm⟩ =>
      have hconverts := converts_of_reorders hp.2 hfree.2 h
      ofTree_mapping_of_reorders (fun _ hpairs => (nodup_iff_clashFree hp hpairs).mpr hfree.1)
        hconverts.1 hconverts.2 hperm
  | .tagged _ content, _, hp, hfree, ⟨_, rfl, h⟩ => by
      rw [ofTree, ofTree]
      exact @ofTree_of_reorders content _ hp hfree h

theorem ofItems_of_reorders : {items others : List Tree} → Tree.ProperItems items →
    Tree.UnambiguousItems items → Tree.ReordersItems items others →
    SameOutcome Value.ReordersItems (ofItems items) (ofItems others)
  | [], _, _, _, rfl => .ok rfl
  | _ :: _, _, hp, hfree, ⟨_, _, rfl, h, hrest⟩ =>
      (ofTree_of_reorders hp.1 hfree.1 h).bind fun _ w hfirst =>
        (ofItems_of_reorders hp.2 hfree.2 hrest).bind fun _ more hitems =>
          .ok ⟨w, more, rfl, hfirst, hitems⟩

theorem converts_of_reorders : {entries changed : List (Tree × Tree)} →
    Tree.ProperEntries entries → Tree.UnambiguousEntries entries →
    Tree.ReordersEntries entries changed →
    (∀ pairs, List.Forall₂ Converts entries pairs →
      ∃ more, List.Forall₂ Converts changed more ∧ Value.ReordersEntries pairs more) ∧
    ∀ more, List.Forall₂ Converts changed more → ∃ pairs, List.Forall₂ Converts entries pairs
  | [], _, _, _, rfl =>
      ⟨fun _ hpairs => ⟨[], .nil, by cases hpairs; rfl⟩, fun _ _ => ⟨[], .nil⟩⟩
  | (key, tree) :: rest, _, hp, hfree, ⟨k, u, more, rfl, hkey, h, hrest⟩ => by
      have hname := keyText_of_reorders hkey
      have hvalue := ofTree_of_reorders hp.2.1 hfree.1 h
      obtain ⟨hforward, hback⟩ := converts_of_reorders hp.2.2 hfree.2 hrest
      constructor
      · rintro _ (_ | @⟨_, pair, _, _, ⟨hk, hv⟩, hpairs⟩)
        obtain ⟨_, hk, rfl⟩ := hname.exists_right hk
        obtain ⟨w, hw, hreorders⟩ := hvalue.exists_right hv
        obtain ⟨pairs, hpairs, hmore⟩ := hforward _ hpairs
        exact ⟨(pair.1, w) :: pairs, .cons ⟨hk, hw⟩ hpairs, w, pairs, rfl, hreorders, hmore⟩
      · rintro _ (_ | ⟨⟨hk, hw⟩, hpairs⟩)
        obtain ⟨name, hk, -⟩ := hname.exists_left hk
        obtain ⟨v, hv, -⟩ := hvalue.exists_left hw
        obtain ⟨pairs, hpairs⟩ := hback _ hpairs
        exact ⟨(name, v) :: pairs, .cons ⟨hk, hv⟩ hpairs⟩

end

/-- What a tree is converted to is well-formed, so that the values are alike. -/
theorem alike_of_reorders {tree other : Tree} (hp : tree.Proper) (hfree : tree.Unambiguous)
    (h : tree.Reorders other) : SameOutcome Value.Alike (ofTree tree) (ofTree other) := by
  have houtcome := ofTree_of_reorders hp hfree h
  refine .of_imp (fun v hv => ?_) fun w hw => ?_
  · obtain ⟨w, hw, hreorders⟩ := houtcome.exists_right hv
    exact ⟨w, hw, wellFormed_of_ofTree hv, hreorders⟩
  · obtain ⟨v, hv, -⟩ := houtcome.exists_left hw
    exact ⟨v, hv⟩

end RolePlan.Yaml
